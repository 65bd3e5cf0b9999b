import Relayer.TransitionProofs

/-! # The keys of a node

    `InitNode` of `node/bridge/init.go` makes three keys and writes them to files,
    `RegisterNode` and `RunNode` read them (`common/keys.go`, `common/bls.go`).
    A write may be refused, stop in the middle, or be cut off by the end of the
    process; a file is only made where there is none.

    * `writeFile` has the ways a write may end, `FileExists` its own idea of what
      exists;
    * `Writes.unchanged`: a key file that is there is never touched by any
      command;
    * **`identity_kept`**: what a successful `InitNode` made is what is registered
      and, only where the keys path leads to the default directory, what a
      registered node runs with;
    * **`damage_stays`**: a key file that was cut off is never made whole: no
      `InitNode` succeeds any more. -/

namespace RelayerKeys

open Transition

variable {K : Type}

/-! ## Files -/

/-- What a path leads to.  A file has a key, or what is no key. -/
inductive Entry (K : Type) where
  | dir
  | file (key : Option K)
  deriving DecidableEq

/-- The files, the one that each path leads to, and the paths that `os.Stat`
    refuses to look at. -/
structure Files (K : Type) where
  entries : String → Option (Entry K)
  locate : String → String
  denied : String → Bool

/-- What is found at a path. -/
def Files.entry (fs : Files K) (path : String) : Option (Entry K) :=
  fs.entries (fs.locate path)

/-- Why a command stopped. -/
inductive Stop where
  | error (err : String)
  /-- A runtime panic. -/
  | panicked
  /-- The process was ended from outside. -/
  | killed
  deriving DecidableEq

/-- How a write ends: as it should, refused, cut off with an error, or with the
    process, before it or in its middle. -/
inductive WriteFault where
  | none
  | refused
  | torn
  | dies
  | cutOff
  deriving DecidableEq

/-- A command: it changes files, and returns or stops. -/
def Cmd (K α : Type) := Files K → Files K × Except Stop α

instance monadCmd : Monad (Cmd K) where
  pure a := fun fs => (fs, .ok a)
  bind c f := fun fs =>
    match c fs with
    | (fs', .ok a) => f a fs'
    | (fs', .error stop) => (fs', .error stop)

/-- `FileExists`: the error of `os.Stat` is only asked whether nothing is
    there, and a directory is no file. -/
def fileExists (filename : String) : Cmd K Bool := fun fs =>
  if fs.denied filename then (fs, .error .panicked)
  else
    match fs.entry filename with
    | some (.file _) => (fs, .ok true)
    | _ => (fs, .ok false)

/-- The path leads there. -/
def Files.put (fs : Files K) (path : String) (entry : Entry K) : Files K :=
  { fs with
    entries := Function.update fs.entries (fs.locate path) (some entry) }

/-- `os.WriteFile`. -/
def writeFile (path : String) (key : K) (fault : WriteFault) : Cmd K Unit :=
  fun fs =>
    match fs.entry path, fault with
    | some .dir, _ => (fs, .error (.error "is a directory"))
    | _, .none => (fs.put path (.file (some key)), .ok ())
    | _, .refused => (fs, .error (.error "open file error"))
    | _, .torn => (fs.put path (.file none), .error (.error "write error"))
    | _, .dies => (fs, .error .killed)
    | _, .cutOff => (fs.put path (.file none), .error .killed)

/-- A file is read, and what is in it taken for a key. -/
def readKey (path : String) : Cmd K K := fun fs =>
  match fs.entry path with
  | none => (fs, .error (.error "no such file"))
  | some .dir => (fs, .error (.error "is a directory"))
  | some (.file none) => (fs, .error (.error "unmarshal error"))
  | some (.file (some key)) => (fs, .ok key)

/-- `os.MkdirAll`, whose error nobody looks at. -/
def mkdirAll (path : String) (succeeds : Bool) : Cmd K Unit := fun fs =>
  match fs.entry path with
  | none => (if succeeds then fs.put path .dir else fs, .ok ())
  | some _ => (fs, .ok ())

/-! ## The commands -/

/-- The three keys of a node: of its host, of the consensus, and of its account. -/
structure Identity (K : Type) where
  host : K
  bls : K
  signer : K
  deriving DecidableEq

def ecdsaFile (keysPath name : String) : String :=
  keysPath ++ "/" ++ name ++ "-ecdsa.key"

def blsFile (keysPath name : String) : String :=
  keysPath ++ "/" ++ name ++ "-bn256.key"

def blsPubFile (keysPath name : String) : String :=
  keysPath ++ "/" ++ name ++ "-bn256.pub.key"

def secp256k1File (keysPath name : String) : String :=
  keysPath ++ "/" ++ name ++ "-secp256k1.key"

/-- `MakeKeyDir`. -/
def makeKeyDir (keysPath : String) (succeeds : Bool) : Cmd K Unit := do
  if ← fileExists keysPath then return ()
  else mkdirAll keysPath succeeds

/-- `GenAndSaveECDSAKey`, with the key it would generate. -/
def genAndSaveECDSAKey (keysPath name : String) (fresh : K) (fault : WriteFault) :
    Cmd K K := do
  if ← fileExists (ecdsaFile keysPath name) then
    readKey (ecdsaFile keysPath name)
  else
    writeFile (ecdsaFile keysPath name) fresh fault
    return fresh

/-- `GenAndSaveBlsKey`.  It returns the public key; here the key it belongs to. -/
def genAndSaveBlsKey (keysPath name : String) (fresh : K)
    (fault pubFault : WriteFault) : Cmd K K := do
  if ← fileExists (blsFile keysPath name) then
    readKey (blsFile keysPath name)
  else
    writeFile (blsFile keysPath name) fresh fault
    writeFile (blsPubFile keysPath name) fresh pubFault
    return fresh

/-- `GetOrGenAndSaveSecp256k1Key`. -/
def getOrGenAndSaveSecp256k1Key (keysPath name : String) (fresh : K)
    (fault : WriteFault) : Cmd K K := do
  if ← fileExists (secp256k1File keysPath name) then
    readKey (secp256k1File keysPath name)
  else
    writeFile (secp256k1File keysPath name) fresh fault
    readKey (secp256k1File keysPath name)

/-- What the environment does to one `InitNode`: the keys that would be
    generated, and how its writes end. -/
structure Chance (K : Type) where
  fresh : Identity K
  mkdir : Bool
  ecdsa : WriteFault
  bls : WriteFault
  blsPub : WriteFault
  secp256k1 : WriteFault

/-- `InitNode`, with the keys it made sure of. -/
def initNode (keysPath name : String) (ch : Chance K) : Cmd K (Identity K) := do
  makeKeyDir keysPath ch.mkdir
  let host ← genAndSaveECDSAKey keysPath name ch.fresh.host ch.ecdsa
  let bls ← genAndSaveBlsKey keysPath name ch.fresh.bls ch.bls ch.blsPub
  let signer ← getOrGenAndSaveSecp256k1Key keysPath name ch.fresh.signer
    ch.secp256k1
  return ⟨host, bls, signer⟩

/-- The keys that `RegisterNode` registers. -/
def registerKeys (keysPath name : String) : Cmd K (Identity K) := do
  let signer ← readKey (secp256k1File keysPath name)
  let bls ← readKey (blsFile keysPath name)
  let host ← readKey (ecdsaFile keysPath name)
  return ⟨host, bls, signer⟩

/-- The file of `KeysFromFilesByConfigName`: its directory is fixed. -/
def configNameFile (name : String) : String :=
  "keys/" ++ name ++ "-bn256.key"

/-- The keys that `RunNode` runs with, if the node is registered; if it is not,
    `RunNode` returns before it reads the key of the consensus. -/
def runKeys (keysPath name : String) (registered : Bool) :
    Cmd K (Option (Identity K)) := do
  let signer ← readKey (secp256k1File keysPath name)
  let host ← readKey (ecdsaFile keysPath name)
  if registered then do
    let bls ← readKey (configNameFile name)
    return some ⟨host, bls, signer⟩
  else return none

/-- The files that hold the keys of a node. -/
def keyFiles (keysPath name : String) : List String :=
  [ecdsaFile keysPath name, blsFile keysPath name, secp256k1File keysPath name]

/-- What may happen on the machine of a node.  Nothing else touches its key
    files. -/
inductive Event (K : Type) where
  | init (ch : Chance K)
  | register
  | run (registered : Bool)
  | other (path : String) (entry : Option (Entry K))

/-- How a command ended, with the keys it used. -/
abbrev Outcome (K : Type) := Except Stop (Option (Identity K))

/-- One event, if it is possible. -/
def Files.react (keysPath name : String) (fs : Files K) :
    Event K → Option (Files K × Option (Outcome K))
  | .init ch =>
      let r := initNode keysPath name ch fs
      some (r.1, some (r.2.map some))
  | .register => some (fs, some ((registerKeys keysPath name fs).2.map some))
  | .run registered => some (fs, some (runKeys keysPath name registered fs).2)
  | .other path entry =>
      if fs.locate path ∈ (keyFiles keysPath name).map fs.locate then none
      else
        some ({ fs with
          entries := Function.update fs.entries (fs.locate path) entry }, none)

/-! ## Paths -/

/-- Two texts with ends of one length that differ are not equal. -/
theorem ne_of_end {a b t u : String} (hlen : t.toList.length = u.toList.length)
    (h : t ≠ u) : a ++ t ≠ b ++ u := by
  intro heq
  have hlist := congrArg String.toList heq
  rw [String.toList_append, String.toList_append] at hlist
  exact h (String.toList_inj.mp (List.append_inj_right' hlist hlen))

variable {keysPath name : String}

theorem blsPubFile_eq :
    blsPubFile keysPath name = keysPath ++ "/" ++ name ++ "-bn2" ++ "56.pub.key" := by
  rw [blsPubFile, show "-bn256.pub.key" = "-bn2" ++ "56.pub.key" from rfl,
    ← String.append_assoc]

theorem secp256k1File_eq :
    secp256k1File keysPath name = keysPath ++ "/" ++ name ++ "-sec" ++ "p256k1.key" := by
  rw [secp256k1File, show "-secp256k1.key" = "-sec" ++ "p256k1.key" from rfl,
    ← String.append_assoc]

/-- The public key is not written over one of the others. -/
theorem blsPubFile_not_mem : blsPubFile keysPath name ∉ keyFiles keysPath name := by
  simp only [keyFiles, List.mem_cons, List.not_mem_nil, or_false, not_or]
  rw [secp256k1File_eq, blsPubFile_eq]
  refine ⟨?_, ?_, ?_⟩
  · exact ne_of_end (by decide) (by decide)
  · exact ne_of_end (by decide) (by decide)
  · exact ne_of_end (by decide) (by decide)

/-- A directory is not among its files. -/
theorem keysPath_not_mem : keysPath ∉ keyFiles keysPath name := by
  have hlong : ∀ t : String, keysPath ≠ keysPath ++ "/" ++ name ++ t := by
    intro t heq
    have hlen := congrArg (fun x => x.toList.length) heq
    simp only [String.toList_append, List.length_append] at hlen
    have hslash : "/".toList.length = 1 := rfl
    omega
  simp only [keyFiles, List.mem_cons, List.not_mem_nil, or_false, not_or]
  exact ⟨hlong _, hlong _, hlong _⟩

/-- The public key and the directory are no key files. -/
structure Apart (locate : String → String) (keysPath name : String) : Prop where
  pub : ∀ path ∈ keyFiles keysPath name,
    locate path ≠ locate (blsPubFile keysPath name)
  dir : ∀ path ∈ keyFiles keysPath name, locate path ≠ locate keysPath

/-- Where every path is a file of its own they are not. -/
theorem apart_id (keysPath name : String) : Apart id keysPath name where
  pub path hpath := by
    rintro rfl
    exact blsPubFile_not_mem hpath
  dir path hpath := by
    rintro rfl
    exact keysPath_not_mem hpath

/-- `KeysFromFilesByConfigName` looks at none of the files that `InitNode`
    makes. -/
def Elsewhere (locate : String → String) (keysPath name : String) : Prop :=
  ∀ path ∈ blsPubFile keysPath name :: keyFiles keysPath name,
    locate (configNameFile name) ≠ locate path

/-! ## What the commands write -/

/-- The path leads to a file. -/
def Files.isFile (fs : Files K) (path : String) : Bool :=
  match fs.entry path with
  | some (.file _) => true
  | _ => false

/-- A regular file stands at the path. -/
theorem isFile_eq_true {fs : Files K} {path : String} :
    fs.isFile path = true ↔ ∃ key, fs.entry path = some (.file key) := by
  rw [Files.isFile]
  split
  next key hentry => exact ⟨fun _ => ⟨key, hentry⟩, fun _ => rfl⟩
  next hno =>
      constructor
      · intro h
        cases h
      · rintro ⟨key, hkey⟩
        exact absurd hkey (hno key)

theorem isFile_congr {fs fs' : Files K} {path : String}
    (h : fs.entry path = fs'.entry path) : fs.isFile path = fs'.isFile path := by
  rw [Files.isFile, Files.isFile, h]

/-- All that a command writes: a key file that was none, the public key, and the
    directory. -/
inductive Writes (keysPath name : String) (fs : Files K) : Files K → Prop where
  | refl : Writes keysPath name fs fs
  | make {fs' : Files K} (path : String) (key : Option K)
      (h : Writes keysPath name fs fs') (hpath : path ∈ keyFiles keysPath name)
      (hnone : fs'.isFile path = false) :
      Writes keysPath name fs (fs'.put path (.file key))
  | publish {fs' : Files K} (key : Option K) (h : Writes keysPath name fs fs') :
      Writes keysPath name fs (fs'.put (blsPubFile keysPath name) (.file key))
  | mkdir {fs' : Files K} (h : Writes keysPath name fs fs')
      (hnone : fs'.isFile keysPath = false) :
      Writes keysPath name fs (fs'.put keysPath .dir)

variable {fs fs' fs'' : Files K}

/-- Writes after writes. -/
theorem Writes.trans (h : Writes keysPath name fs fs')
    (h' : Writes keysPath name fs' fs'') : Writes keysPath name fs fs'' := by
  induction h' with
  | refl => exact h
  | make path key _ hpath hnone ih => exact .make path key ih hpath hnone
  | publish key _ ih => exact .publish key ih
  | mkdir _ hnone ih => exact .mkdir ih hnone

theorem put_self {path : String} {entry : Entry K} :
    (fs.put path entry).entry path = some entry :=
  Function.update_self ..

theorem put_of_ne {path path' : String} {entry : Entry K}
    (h : fs.locate path' ≠ fs.locate path) :
    (fs.put path entry).entry path' = fs.entry path' :=
  Function.update_of_ne h ..

/-- No command moves a file. -/
theorem Writes.locate (h : Writes keysPath name fs fs') :
    fs'.locate = fs.locate := by
  induction h with
  | refl => rfl
  | make path key _ _ _ ih => exact ih
  | publish key _ ih => exact ih
  | mkdir _ _ ih => exact ih

/-- **A KEY FILE THAT IS THERE IS NOT TOUCHED**, whatever is in it. -/
theorem Writes.unchanged {path : String} {key : Option K}
    (h : Writes keysPath name fs fs') (hapart : Apart fs.locate keysPath name)
    (hpath : path ∈ keyFiles keysPath name)
    (hfile : fs.entry path = some (.file key)) :
    fs'.entry path = some (.file key) := by
  induction h with
  | refl => exact hfile
  | @make fs₁ path' key' _ _ hnone ih =>
      rw [put_of_ne, ih]
      intro hsame
      have hsome : fs₁.isFile path' = true := by
        refine isFile_eq_true.mpr ⟨key, ?_⟩
        rw [Files.entry, ← hsame]
        exact ih
      rw [hnone] at hsome
      cases hsome
  | publish key' hw ih =>
      rw [put_of_ne, ih]
      rw [hw.locate]
      exact hapart.pub path hpath
  | mkdir hw _ ih =>
      rw [put_of_ne, ih]
      rw [hw.locate]
      exact hapart.dir path hpath

/-- Elsewhere nobody makes the file that the node runs with. -/
theorem Writes.not_isFile (h : Writes keysPath name fs fs')
    (helse : Elsewhere fs.locate keysPath name)
    (hnone : fs.isFile (configNameFile name) = false) :
    fs'.isFile (configNameFile name) = false := by
  induction h with
  | refl => exact hnone
  | make path key hw hpath _ ih =>
      refine (isFile_congr (put_of_ne ?_)).trans ih
      rw [hw.locate]
      exact helse path (List.mem_cons_of_mem _ hpath)
  | publish key hw ih =>
      refine (isFile_congr (put_of_ne ?_)).trans ih
      rw [hw.locate]
      exact helse _ List.mem_cons_self
  | @mkdir fs₁ _ _ ih =>
      by_cases hdir : fs₁.locate (configNameFile name) = fs₁.locate keysPath
      · have hentry : (fs₁.put keysPath .dir).entry (configNameFile name) =
            some .dir := by
          show Function.update fs₁.entries (fs₁.locate keysPath) _
            (fs₁.locate (configNameFile name)) = _
          rw [hdir, Function.update_self]
        rw [Files.isFile, hentry]
      · exact (isFile_congr (put_of_ne hdir)).trans ih

/-! ## Commands, step by step -/

section Cmds

variable {α β : Type} {path : String}

/-- A command after another, unless the first has stopped. -/
theorem bind_run (c : Cmd K α) (f : α → Cmd K β) (fs : Files K) :
    (c >>= f) fs =
      match c fs with
      | (fs', .ok a) => f a fs'
      | (fs', .error stop) => (fs', .error stop) := rfl

/-- A sequence that succeeds has succeeded in both parts. -/
theorem bind_eq_ok {c : Cmd K α} {f : α → Cmd K β} {b : β}
    (h : (c >>= f) fs = (fs'', .ok b)) :
    ∃ fs' a, c fs = (fs', .ok a) ∧ f a fs' = (fs'', .ok b) := by
  rw [bind_run] at h
  split at h
  next fs' a hc => exact ⟨fs', a, hc, h⟩
  next => cases h

/-- A sequence writes what its parts write. -/
theorem bind_writes {c : Cmd K α} {f : α → Cmd K β}
    (hc : Writes keysPath name fs (c fs).1)
    (hf : ∀ a fs, Writes keysPath name fs (f a fs).1) :
    Writes keysPath name fs ((c >>= f) fs).1 := by
  rw [bind_run]
  split
  next fs' a heq =>
      rw [heq] at hc
      exact hc.trans (hf a fs')
  next fs' stop heq =>
      rw [heq] at hc
      exact hc

/-- `FileExists` as a test. -/
theorem ifExists_run (path : String) (c d : Cmd K α) (fs : Files K) :
    (fileExists path >>= fun b => if b then c else d) fs =
      if fs.denied path then (fs, .error .panicked)
      else if fs.isFile path then c fs else d fs := by
  rw [bind_run, fileExists, Files.isFile]
  by_cases hdenied : fs.denied path = true
  · rw [if_pos hdenied, if_pos hdenied]
  · rw [if_neg hdenied, if_neg hdenied]
    cases fs.entry path with
    | none => rfl
    | some entry =>
        cases entry with
        | dir => rfl
        | file key => rfl

/-- `if FileExists(path)` writes what its branches write. -/
theorem ifExists_writes {c d : Cmd K α}
    (hc : ∀ fs, Writes keysPath name fs (c fs).1)
    (hd : ∀ fs, fs.isFile path = false → Writes keysPath name fs (d fs).1)
    (fs : Files K) :
    Writes keysPath name fs
      ((fileExists path >>= fun b => if b then c else d) fs).1 := by
  rw [ifExists_run]
  split
  next => exact .refl
  next =>
      split
      next => exact hc fs
      next hfile => exact hd fs (Bool.eq_false_of_not_eq_true hfile)

/-- Reading writes nothing. -/
theorem readKey_writes (fs : Files K) :
    Writes keysPath name fs (readKey path fs).1 := by
  unfold readKey
  split
  next => exact .refl
  next => exact .refl
  next => exact .refl
  next => exact .refl

theorem readKey_eq_ok {key : K} (h : readKey path fs = (fs', .ok key)) :
    fs' = fs ∧ fs.entry path = some (.file (some key)) := by
  unfold readKey at h
  split at h
  next => cases h
  next => cases h
  next => cases h
  next hentry =>
      cases h
      exact ⟨rfl, hentry⟩

theorem readKey_of_entry {key : K}
    (h : fs.entry path = some (.file (some key))) :
    readKey path fs = (fs, .ok key) := by
  rw [readKey, h]

/-- A write leaves things as they are, or makes a file. -/
theorem writeFile_cases (path : String) (key : K) (fault : WriteFault)
    (fs : Files K) :
    (writeFile path key fault fs).1 = fs ∨
      ∃ key', (writeFile path key fault fs).1 = fs.put path (.file key') := by
  unfold writeFile
  split
  next => exact Or.inl rfl
  next => exact Or.inr ⟨some key, rfl⟩
  next => exact Or.inl rfl
  next => exact Or.inr ⟨none, rfl⟩
  next => exact Or.inl rfl
  next => exact Or.inr ⟨none, rfl⟩

/-- A write without an error has put the key. -/
theorem writeFile_eq_ok {key : K} {fault : WriteFault}
    (h : writeFile path key fault fs = (fs', .ok ())) :
    fs' = fs.put path (.file (some key)) := by
  unfold writeFile at h
  split at h
  next => cases h
  next =>
      cases h
      rfl
  next => cases h
  next => cases h
  next => cases h
  next => cases h

theorem writeFile_writes {key : K} {fault : WriteFault}
    (hpath : path ∈ keyFiles keysPath name) (hnone : fs.isFile path = false) :
    Writes keysPath name fs (writeFile path key fault fs).1 := by
  rcases writeFile_cases path key fault fs with heq | ⟨key', heq⟩
  · rw [heq]
    exact .refl
  · rw [heq]
    exact .make path key' .refl hpath hnone

theorem publish_writes {key : K} {fault : WriteFault} :
    Writes keysPath name fs
      (writeFile (blsPubFile keysPath name) key fault fs).1 := by
  rcases writeFile_cases (blsPubFile keysPath name) key fault fs with
    heq | ⟨key', heq⟩
  · rw [heq]
    exact .refl
  · rw [heq]
    exact .publish key' .refl

theorem pure_writes (a : α) (fs : Files K) :
    Writes keysPath name fs ((pure a : Cmd K α) fs).1 :=
  .refl

end Cmds

/-! ## What the commands leave behind -/

theorem ecdsaFile_mem : ecdsaFile keysPath name ∈ keyFiles keysPath name :=
  List.mem_cons_self

theorem blsFile_mem : blsFile keysPath name ∈ keyFiles keysPath name :=
  List.mem_cons_of_mem _ List.mem_cons_self

theorem secp256k1File_mem : secp256k1File keysPath name ∈ keyFiles keysPath name :=
  List.mem_cons_of_mem _ (List.mem_cons_of_mem _ List.mem_cons_self)

/-- The directory is made only where nothing stands. -/
theorem makeKeyDir_writes (succeeds : Bool) (fs : Files K) :
    Writes keysPath name fs (makeKeyDir keysPath succeeds fs).1 := by
  refine ifExists_writes (pure_writes ()) ?_ fs
  intro fs hfile
  unfold mkdirAll
  split
  next =>
      cases succeeds with
      | true => exact .mkdir .refl hfile
      | false => exact .refl
  next => exact .refl

theorem genAndSaveECDSAKey_writes (fresh : K) (fault : WriteFault) (fs : Files K) :
    Writes keysPath name fs
      (genAndSaveECDSAKey keysPath name fresh fault fs).1 := by
  refine ifExists_writes readKey_writes ?_ fs
  intro fs hfile
  exact bind_writes (writeFile_writes ecdsaFile_mem hfile) fun _ => pure_writes fresh

/-- The BLS key is written where it is missing, its public key beside it. -/
theorem genAndSaveBlsKey_writes (fresh : K) (fault pubFault : WriteFault)
    (fs : Files K) :
    Writes keysPath name fs
      (genAndSaveBlsKey keysPath name fresh fault pubFault fs).1 := by
  refine ifExists_writes readKey_writes ?_ fs
  intro fs hfile
  refine bind_writes (writeFile_writes blsFile_mem hfile) fun _ fs => ?_
  exact bind_writes publish_writes fun _ => pure_writes fresh

theorem getOrGenAndSaveSecp256k1Key_writes (fresh : K) (fault : WriteFault)
    (fs : Files K) :
    Writes keysPath name fs
      (getOrGenAndSaveSecp256k1Key keysPath name fresh fault fs).1 := by
  refine ifExists_writes readKey_writes ?_ fs
  intro fs hfile
  exact bind_writes (writeFile_writes secp256k1File_mem hfile) fun _ => readKey_writes

/-- **WHAT `InitNode` WRITES**. -/
theorem initNode_writes (ch : Chance K) (fs : Files K) :
    Writes keysPath name fs (initNode keysPath name ch fs).1 := by
  refine bind_writes (makeKeyDir_writes ch.mkdir fs) fun _ fs => ?_
  refine bind_writes (genAndSaveECDSAKey_writes _ _ fs) fun host fs => ?_
  refine bind_writes (genAndSaveBlsKey_writes _ _ _ fs) fun bls fs => ?_
  exact bind_writes (getOrGenAndSaveSecp256k1Key_writes _ _ fs) fun _ => pure_writes _

/-- A test of `FileExists` that led to a value. -/
theorem ifExists_eq_ok {α : Type} {path : String} {c d : Cmd K α} {a : α}
    (h : (fileExists path >>= fun b => if b then c else d) fs = (fs', .ok a)) :
    c fs = (fs', .ok a) ∨ d fs = (fs', .ok a) := by
  rw [ifExists_run] at h
  split at h
  next => cases h
  next =>
      split at h
      next => exact Or.inl h
      next => exact Or.inr h

/-- The host key returned is the one in its file. -/
theorem genAndSaveECDSAKey_eq_ok {fresh key : K} {fault : WriteFault}
    (h : genAndSaveECDSAKey keysPath name fresh fault fs = (fs', .ok key)) :
    fs'.entry (ecdsaFile keysPath name) = some (.file (some key)) := by
  rcases ifExists_eq_ok h with hread | hmake
  · obtain ⟨rfl, hentry⟩ := readKey_eq_ok hread
    exact hentry
  · obtain ⟨fs₁, _, hwrite, hpure⟩ := bind_eq_ok hmake
    cases hpure
    rw [writeFile_eq_ok hwrite]
    exact put_self

/-- The BLS key returned is the one in its file, the public key written after it.
    -/
theorem genAndSaveBlsKey_eq_ok {fresh key : K} {fault pubFault : WriteFault}
    (hapart : Apart fs.locate keysPath name)
    (h : genAndSaveBlsKey keysPath name fresh fault pubFault fs = (fs', .ok key)) :
    fs'.entry (blsFile keysPath name) = some (.file (some key)) := by
  rcases ifExists_eq_ok h with hread | hmake
  · obtain ⟨rfl, hentry⟩ := readKey_eq_ok hread
    exact hentry
  · obtain ⟨fs₁, _, hwrite, hmore⟩ := bind_eq_ok hmake
    obtain ⟨fs₂, _, hpub, hpure⟩ := bind_eq_ok hmore
    cases hpure
    rw [writeFile_eq_ok hpub, writeFile_eq_ok hwrite, put_of_ne]
    · exact put_self
    · exact hapart.pub _ blsFile_mem

/-- The signer key returned is read back from its file. -/
theorem getOrGenAndSaveSecp256k1Key_eq_ok {fresh key : K} {fault : WriteFault}
    (h : getOrGenAndSaveSecp256k1Key keysPath name fresh fault fs =
      (fs', .ok key)) :
    fs'.entry (secp256k1File keysPath name) = some (.file (some key)) := by
  rcases ifExists_eq_ok h with hread | hmake
  · obtain ⟨rfl, hentry⟩ := readKey_eq_ok hread
    exact hentry
  · obtain ⟨fs₁, _, -, hread⟩ := bind_eq_ok hmake
    obtain ⟨rfl, hentry⟩ := readKey_eq_ok hread
    exact hentry

/-- The three files hold the keys. -/
structure Holds (keysPath name : String) (fs : Files K) (id : Identity K) : Prop where
  host : fs.entry (ecdsaFile keysPath name) = some (.file (some id.host))
  bls : fs.entry (blsFile keysPath name) = some (.file (some id.bls))
  signer : fs.entry (secp256k1File keysPath name) = some (.file (some id.signer))

/-- **WHAT A SUCCESSFUL `InitNode` LEAVES**: the keys it returned, in the
    files. -/
theorem initNode_eq_ok {ch : Chance K} {id : Identity K}
    (hapart : Apart fs.locate keysPath name)
    (h : initNode keysPath name ch fs = (fs', .ok id)) :
    Holds keysPath name fs' id := by
  obtain ⟨fs₁, _, hdir, h⟩ := bind_eq_ok h
  obtain ⟨fs₂, host, hhost, h⟩ := bind_eq_ok h
  obtain ⟨fs₃, bls, hbls, h⟩ := bind_eq_ok h
  obtain ⟨fs₄, signer, hsigner, h⟩ := bind_eq_ok h
  cases h
  have hw₁ := @makeKeyDir_writes K keysPath name ch.mkdir fs
  have hw₂ := @genAndSaveECDSAKey_writes K keysPath name ch.fresh.host ch.ecdsa fs₁
  have hw₃ := @genAndSaveBlsKey_writes K keysPath name ch.fresh.bls ch.bls
    ch.blsPub fs₂
  have hw₄ := @getOrGenAndSaveSecp256k1Key_writes K keysPath name
    ch.fresh.signer ch.secp256k1 fs₃
  rw [hdir] at hw₁
  rw [hhost] at hw₂
  rw [hbls] at hw₃
  rw [hsigner] at hw₄
  -- later writes go to other places, so the earlier keys stay
  have hapart₂ : Apart fs₂.locate keysPath name :=
    (hw₁.trans hw₂).locate ▸ hapart
  have hapart₃ : Apart fs₃.locate keysPath name := hw₃.locate ▸ hapart₂
  refine ⟨?_, ?_, getOrGenAndSaveSecp256k1Key_eq_ok hsigner⟩
  · exact hw₄.unchanged hapart₃ ecdsaFile_mem
      (hw₃.unchanged hapart₂ ecdsaFile_mem (genAndSaveECDSAKey_eq_ok hhost))
  · exact hw₄.unchanged hapart₃ blsFile_mem (genAndSaveBlsKey_eq_ok hapart₂ hbls)

/-! ## Whole histories -/

section Histories

variable {e : Event K} {o : Option (Outcome K)} {path : String} {key : Option K}

/-- No event moves a file. -/
theorem react_locate (h : fs.react keysPath name e = some (fs', o)) :
    fs'.locate = fs.locate := by
  cases e with
  | init ch =>
      cases h
      exact (initNode_writes ch fs).locate
  | register | run =>
      cases h
      rfl
  | other path entry =>
      rw [Files.react] at h
      split at h
      next => cases h
      next =>
          cases h
          rfl

/-- An event that is not of this node leaves its key files alone. -/
theorem react_unchanged (hapart : Apart fs.locate keysPath name)
    (h : fs.react keysPath name e = some (fs', o))
    (hpath : path ∈ keyFiles keysPath name)
    (hfile : fs.entry path = some (.file key)) :
    fs'.entry path = some (.file key) := by
  cases e with
  | init ch =>
      cases h
      exact (initNode_writes ch fs).unchanged hapart hpath hfile
  | register | run =>
      cases h
      exact hfile
  | other path' entry =>
      rw [Files.react] at h
      split at h
      next => cases h
      next hother =>
          cases h
          show Function.update fs.entries (fs.locate path') entry
            (fs.locate path) = _
          rw [Function.update_of_ne]
          · exact hfile
          · intro hsame
            exact hother (hsame ▸ List.mem_map_of_mem hpath)

end Histories

abbrev Label (K : Type) := Event K × Option (Outcome K)

/-- The paths lead where they led, along every run. -/
theorem run_locate {tr : List (Label K)}
    (hrun : Run (Fires (Files.react keysPath name)) fs tr fs') :
    fs'.locate = fs.locate :=
  hrun.invariant (P := fun fs' => fs'.locate = fs.locate) rfl
    fun _ _ _ h hfires => (react_locate hfires).trans h

/-- A key file that is there is never changed. -/
theorem run_unchanged {tr : List (Label K)} {path : String} {key : Option K}
    (hapart : Apart fs.locate keysPath name)
    (hrun : Run (Fires (Files.react keysPath name)) fs tr fs')
    (hpath : path ∈ keyFiles keysPath name)
    (hfile : fs.entry path = some (.file key)) :
    fs'.entry path = some (.file key) := by
  refine (hrun.invariant (P := fun fs' => fs'.locate = fs.locate ∧
    fs'.entry path = some (.file key)) ⟨rfl, hfile⟩ ?_).2
  rintro a l b ⟨hlocate, hkept⟩ hfires
  exact ⟨(react_locate hfires).trans hlocate,
    react_unchanged (hlocate ▸ hapart) hfires hpath hkept⟩

theorem bind_of_ok {α β : Type} {c : Cmd K α} {f : α → Cmd K β} {a : α}
    (h : c fs = (fs', .ok a)) : (c >>= f) fs = f a fs' := by
  rw [bind_run, h]

/-- `register` reads the three keys. -/
theorem Holds.registers {id : Identity K} (h : Holds keysPath name fs id) :
    registerKeys keysPath name fs = (fs, .ok id) := by
  rw [registerKeys, bind_of_ok (readKey_of_entry h.signer),
    bind_of_ok (readKey_of_entry h.bls), bind_of_ok (readKey_of_entry h.host)]
  rfl

/-- A node that is not registered does not read the key of the consensus. -/
theorem Holds.runs_unregistered {id : Identity K} (h : Holds keysPath name fs id) :
    runKeys keysPath name false fs = (fs, .ok none) := by
  rw [runKeys, bind_of_ok (readKey_of_entry h.signer),
    bind_of_ok (readKey_of_entry h.host)]
  rfl

/-- A registered node reads two of them, and the BLS key from the path of its
    config. -/
theorem Holds.runs {id : Identity K} (h : Holds keysPath name fs id) :
    runKeys keysPath name true fs =
      (readKey (configNameFile name) >>= fun bls =>
        pure (some ⟨id.host, bls, id.signer⟩)) fs := by
  rw [runKeys, bind_of_ok (readKey_of_entry h.signer),
    bind_of_ok (readKey_of_entry h.host)]
  rfl

/-- Without a file there is no key. -/
theorem readKey_of_not_isFile {path : String} (h : fs.isFile path = false) :
    ∃ err, readKey path fs = (fs, .error (.error err)) := by
  unfold readKey
  unfold Files.isFile at h
  cases hentry : fs.entry path with
  | none => exact ⟨_, rfl⟩
  | some entry =>
      cases entry with
      | dir => exact ⟨_, rfl⟩
      | file key =>
          rw [hentry] at h
          cases h

/-- The event puts something at the file. -/
def touches (locate : String → String) (path : String) : Event K → Prop
  | .other path' _ => locate path' = locate path
  | _ => False

/-- Nothing makes a file at the config's path but an action on it. -/
theorem run_not_isFile {tr : List (Label K)}
    (hrun : Run (Fires (Files.react keysPath name)) fs tr fs')
    (helse : Elsewhere fs.locate keysPath name)
    (hnone : fs.isFile (configNameFile name) = false)
    (hother : ∀ l ∈ tr, ¬ touches fs.locate (configNameFile name) l.1) :
    fs'.isFile (configNameFile name) = false := by
  induction hrun with
  | refl => exact hnone
  | @tail a b tr l hbefore hlast ih =>
      have hsame := run_locate hbefore
      have hfile := ih fun l hl => hother l (List.mem_append_left _ hl)
      have hl := hother l (List.mem_append_right _ (List.mem_singleton_self l))
      obtain ⟨e, o⟩ := l
      have hreact : a.react keysPath name e = some (b, o) := hlast
      cases e with
      | init ch =>
          cases hreact
          exact (initNode_writes ch a).not_isFile (hsame ▸ helse) hfile
      | register | run =>
          cases hreact
          exact hfile
      | other path entry =>
          rw [Files.react] at hreact
          split at hreact
          next => cases hreact
          next =>
              cases hreact
              -- the other action goes to another place
              have hne : a.locate (configNameFile name) ≠ a.locate path := by
                rw [hsame]
                exact fun heq => hl heq.symm
              have hentry : Files.entry { a with
                  entries := Function.update a.entries (a.locate path) entry }
                  (configNameFile name) = a.entry (configNameFile name) :=
                Function.update_of_ne hne ..
              exact (isFile_congr hentry).trans hfile

/-- **THE IDENTITY IS KEPT**: after a successful `InitNode`, whatever commands run
    and however they end, the keys it made are those that are registered, and a
    registered node runs with them if `KeysFromFilesByConfigName` looks at the
    file that `InitNode` made.  If it looks elsewhere a registered node does not
    run at all, where nobody puts a key there.  A node that is not registered
    never gets so far. -/
theorem identity_kept {ch : Chance K} {id : Identity K} {fs fs₁ fs₂ : Files K}
    {tr : List (Label K)} (hapart : Apart fs.locate keysPath name)
    (hinit : initNode keysPath name ch fs = (fs₁, .ok id))
    (hrun : Run (Fires (Files.react keysPath name)) fs₁ tr fs₂) :
    registerKeys keysPath name fs₂ = (fs₂, .ok id) ∧
    runKeys keysPath name false fs₂ = (fs₂, .ok none) ∧
    (fs.locate (configNameFile name) = fs.locate (blsFile keysPath name) →
      runKeys keysPath name true fs₂ = (fs₂, .ok (some id))) ∧
    (Elsewhere fs.locate keysPath name →
      fs.isFile (configNameFile name) = false →
      (∀ l ∈ tr, ¬ touches fs.locate (configNameFile name) l.1) →
      ∃ err, runKeys keysPath name true fs₂ = (fs₂, .error (.error err))) := by
  have hwrites := @initNode_writes K keysPath name ch fs
  rw [hinit] at hwrites
  have hsame : fs₁.locate = fs.locate := hwrites.locate
  have hapart₁ : Apart fs₁.locate keysPath name := hsame ▸ hapart
  have hmade := initNode_eq_ok hapart hinit
  have hholds : Holds keysPath name fs₂ id :=
    ⟨run_unchanged hapart₁ hrun ecdsaFile_mem hmade.host,
      run_unchanged hapart₁ hrun blsFile_mem hmade.bls,
      run_unchanged hapart₁ hrun secp256k1File_mem hmade.signer⟩
  refine ⟨hholds.registers, hholds.runs_unregistered, ?_, ?_⟩
  -- the config's path leads to the BLS key: it is the one `init` made
  · intro hfile
    have hentry : fs₂.entry (configNameFile name) =
        some (.file (some id.bls)) := by
      rw [Files.entry, run_locate hrun, hsame, hfile, ← hsame, ← run_locate hrun]
      exact hholds.bls
    rw [hholds.runs, bind_of_ok (readKey_of_entry hentry)]
    rfl
  -- it leads elsewhere, where nobody has put a key
  · intro helse hnone hother
    obtain ⟨err, hread⟩ := readKey_of_not_isFile (run_not_isFile hrun
      (hsame ▸ helse) (hwrites.not_isFile helse hnone) (hsame ▸ hother))
    refine ⟨err, ?_⟩
    rw [hholds.runs, bind_run, hread]

/-- Where a path leads to: `./keys` is `keys`. -/
def cleaned (path : String) : String :=
  match path.toList with
  | '.' :: '/' :: rest => String.ofList rest
  | _ => path

/-- An empty disk. -/
def emptyFiles (locate : String → String) : Files ℕ :=
  ⟨fun _ => none, locate, fun _ => false⟩

/-- An `InitNode` that nothing disturbs. -/
def quiet (fresh : Identity ℕ) : Chance ℕ :=
  ⟨fresh, true, .none, .none, .none, .none⟩

theorem apart_cleaned : Apart cleaned "./keys" "bridge" ∧
    Apart cleaned "/etc/keys" "bridge" := by
  refine ⟨⟨?_, ?_⟩, ⟨?_, ?_⟩⟩ <;> decide +kernel

/-- In `./keys` the node runs with what a first `InitNode` made and a second one
    would not have; in `/etc/keys` it does not run unless it is not registered. -/
theorem identity_kept_sample :
    (∃ fs₁ tr fs₂, initNode "./keys" "bridge" (quiet ⟨1, 2, 3⟩) (emptyFiles cleaned) =
        (fs₁, .ok ⟨1, 2, 3⟩) ∧
      Run (Fires (Files.react "./keys" "bridge")) fs₁ tr fs₂ ∧ tr.length = 1 ∧
      registerKeys "./keys" "bridge" fs₂ = (fs₂, .ok ⟨1, 2, 3⟩) ∧
      runKeys "./keys" "bridge" true fs₂ = (fs₂, .ok (some ⟨1, 2, 3⟩))) ∧
    ∃ fs₁, initNode "/etc/keys" "bridge" (quiet ⟨1, 2, 3⟩) (emptyFiles cleaned) =
        (fs₁, .ok ⟨1, 2, 3⟩) ∧
      runKeys "/etc/keys" "bridge" false fs₁ = (fs₁, .ok none) ∧
      ∃ err, runKeys "/etc/keys" "bridge" true fs₁ =
        (fs₁, .error (.error err)) := by
  constructor
  · have hinit : initNode "./keys" "bridge" (quiet ⟨1, 2, 3⟩) (emptyFiles cleaned) =
        ((initNode "./keys" "bridge" (quiet ⟨1, 2, 3⟩) (emptyFiles cleaned)).1,
          .ok ⟨1, 2, 3⟩) := Prod.ext rfl (by decide +kernel)
    have hagain : Fires (Files.react "./keys" "bridge")
        (initNode "./keys" "bridge" (quiet ⟨1, 2, 3⟩) (emptyFiles cleaned)).1
        (.init (quiet ⟨4, 5, 6⟩), _) _ := rfl
    obtain ⟨hregisters, -, hruns, -⟩ :=
      identity_kept apart_cleaned.1 hinit (Run.single hagain)
    exact ⟨_, _, _, hinit, Run.single hagain, rfl, hregisters,
      hruns (by decide +kernel)⟩
  · have hinit : initNode "/etc/keys" "bridge" (quiet ⟨1, 2, 3⟩) (emptyFiles cleaned) =
        ((initNode "/etc/keys" "bridge" (quiet ⟨1, 2, 3⟩) (emptyFiles cleaned)).1,
          .ok ⟨1, 2, 3⟩) := Prod.ext rfl (by decide +kernel)
    obtain ⟨-, hunregistered, -, hfails⟩ :=
      identity_kept apart_cleaned.2 hinit Run.refl
    refine ⟨_, hinit, hunregistered, hfails ?_ rfl ?_⟩
    · show ∀ path ∈ _, _
      decide +kernel
    · exact fun l hl => absurd hl List.not_mem_nil

/-- **DAMAGE STAYS**: once a key file holds what is no key, as a write that was
    cut off leaves it, it stays so, and every `InitNode` fails. -/
theorem damage_stays {path : String} {tr : List (Label K)}
    (hapart : Apart fs.locate keysPath name)
    (hpath : path ∈ keyFiles keysPath name)
    (hdamaged : fs.entry path = some (.file none))
    (hrun : Run (Fires (Files.react keysPath name)) fs tr fs') :
    fs'.entry path = some (.file none) ∧
    ∀ l ∈ tr, ∀ ch, l.1 = .init ch → ∃ stop, l.2 = some (.error stop) := by
  induction hrun with
  | refl => exact ⟨hdamaged, fun l hl => absurd hl List.not_mem_nil⟩
  | @tail a b tr l hbefore hlast ih =>
      have hapart' : Apart a.locate keysPath name := run_locate hbefore ▸ hapart
      have hafter := react_unchanged hapart' hlast hpath ih.1
      refine ⟨hafter, fun l' hl' ch hch => ?_⟩
      rcases List.mem_append.mp hl' with hl' | hl'
      · exact ih.2 l' hl' ch hch
      · obtain rfl := List.mem_singleton.mp hl'
        obtain ⟨e, o⟩ := l'
        cases hch
        have hreact : a.react keysPath name (.init ch) = some (b, o) := hlast
        cases hreact
        cases hresult : (initNode keysPath name ch a).2 with
        | error stop => exact ⟨stop, rfl⟩
        | ok id =>
            -- a success would have left keys in all three files
            have hholds := initNode_eq_ok hapart' (Prod.ext rfl hresult)
            have hkey : ∃ key : K, (initNode keysPath name ch a).1.entry path =
                some (.file (some key)) := by
              simp only [keyFiles, List.mem_cons, List.not_mem_nil, or_false] at hpath
              rcases hpath with rfl | rfl | rfl
              · exact ⟨_, hholds.host⟩
              · exact ⟨_, hholds.bls⟩
              · exact ⟨_, hholds.signer⟩
            obtain ⟨key, hkey⟩ := hkey
            rw [hkey] at hafter
            cases hafter

/-- The first `InitNode` is cut off while it writes the second key; no later one
    succeeds. -/
theorem damage_stays_sample :
    (initNode "keys" "bridge" { quiet ⟨1, 2, 3⟩ with bls := .cutOff }
      (emptyFiles id)).2 = .error .killed ∧
    ∃ stop, (initNode "keys" "bridge" (quiet ⟨4, 5, 6⟩)
      (initNode "keys" "bridge" { quiet ⟨1, 2, 3⟩ with bls := .cutOff }
        (emptyFiles id)).1).2 = .error stop := by
  refine ⟨by decide +kernel, ?_⟩
  have hlocate : (initNode "keys" "bridge"
      { quiet ⟨1, 2, 3⟩ with bls := .cutOff } (emptyFiles id)).1.locate = id :=
    (initNode_writes _ (emptyFiles id)).locate
  have hdamaged : (initNode "keys" "bridge"
      { quiet ⟨1, 2, 3⟩ with bls := .cutOff } (emptyFiles id)).1.entry
      (blsFile "keys" "bridge") = some (.file none) := by decide +kernel
  have hagain : Fires (Files.react "keys" "bridge")
      (initNode "keys" "bridge" { quiet ⟨1, 2, 3⟩ with bls := .cutOff }
        (emptyFiles id)).1 (.init (quiet ⟨4, 5, 6⟩), _) _ := rfl
  obtain ⟨stop, hstop⟩ := (damage_stays (hlocate ▸ apart_id _ _) blsFile_mem
    hdamaged (Run.single hagain)).2 _ (List.mem_singleton_self _) _ rfl
  cases hresult : (initNode "keys" "bridge" (quiet ⟨4, 5, 6⟩)
      (initNode "keys" "bridge" { quiet ⟨1, 2, 3⟩ with bls := .cutOff }
        (emptyFiles id)).1).2 with
  | error stop => exact ⟨stop, rfl⟩
  | ok id =>
      rw [hresult] at hstop
      cases hstop

end RelayerKeys
