import Relayer.RawdbProofs

/-! # Transactions by their hash

    `ReadTransaction` of `chain/rawdb/indexes.go`: the lookup entry of a hash
    names a position of a block, and the transaction is taken from the body
    that is stored for that block.

    * `Step` stores a block with its lookup entries, or deletes a body;
    * `lookup_cases` says which entry is left for a hash, `body_of_kept` which
      body for a block, after any steps;
    * **`transaction_found`**: under which conditions every stored transaction
      is found and every other hash is not;
    * **`transaction_lost`**: a nonce that is lost, and a deleted body that
      makes the lookup panic. -/

namespace RelayerLookup

open RelayerLogCache RelayerRawdb RelayerStore RelayerTransaction Sha256 Tables

/-! ## Steps and lookups -/

/-- A block is stored with its lookup entries, or a body is deleted. -/
inductive Step (E : Type) where
  | store (b : Block E)
  | deleteBody (hash : Hash) (number : UInt64)

/-- The calls of a step. -/
def Step.ops {E : Type} : Step E → List (Op E)
  | .store b => [.writeBlock b.hash b.number b, .writeTxLookupEntries b]
  | .deleteBody hash number => [.deleteBody hash number]

/-- A transaction with the hash of its block, the number of the block and its
    index there. -/
abbrev Found (E : Type) := Transaction E × Hash × UInt64 × ℕ

/-- `body.Transactions[txIndex]`, with what else is returned. -/
def transactionAt {E : Type} (entry : TxLookupEntry)
    (transactions : List (Transaction E)) : Except Abort (Option (Found E)) :=
  match transactions[entry.index]? with
  | none => .error (.indexOutOfRange entry.index transactions.length)
  | some tx => .ok (some (tx, entry.blockHash, entry.blockIndex, entry.index))

/-- `ReadTransaction`. -/
def readTransaction {E : Type} (rlp : Rlp E) (db : Store) (zero : E)
    (hash : Hash) : Except Abort (Option (Found E)) :=
  let entry := readTxLookupEntry rlp db hash
  if entry.blockHash = zeroHash then .ok none
  else do
    let body ← readBlock rlp db zero entry.blockHash entry.blockIndex
    transactionAt entry body.transactions

section Steps

variable {E : Type} (gob : Gob E) (rlp : Rlp E)

/-- The tables after some steps. -/
def after (steps : List (Step E)) : (k : Key) → Option k.Value :=
  tablesAfter gob rlp (steps.flatMap Step.ops)

/-- The block has a transaction with this hash. -/
def Carries (b : Block E) (hash : Hash) : Prop :=
  ∃ tx ∈ b.transactions, tx.hash gob = hash

/-- The block was stored and its body not deleted since. -/
def StillStored (steps : List (Step E)) (b : Block E) : Prop :=
  ∃ before later, steps = before ++ .store b :: later ∧
    .deleteBody b.hash b.number ∉ later

/-- What is asked of the blocks stored and the bodies deleted: rlp can encode
    the blocks, their hashes are not the zero hash, nonces and chain ids are
    zero, blocks in one position have the same transactions, different events
    have different digests, and the last block that was stored with some
    transaction is not deleted afterwards. -/
structure Orderly (steps : List (Step E)) : Prop where
  encodable : ∀ b, .store b ∈ steps → (rlp.encodeBlock b.fields).isSome
  hash_ne : ∀ b, .store b ∈ steps → b.hash ≠ zeroHash
  plain : ∀ b, .store b ∈ steps → ∀ tx ∈ b.transactions,
    tx.nonce = 0 ∧ tx.chainId = 0
  position : ∀ b b', .store b ∈ steps → .store b' ∈ steps →
    b.hash = b'.hash → b.number = b'.number → b.transactions = b'.transactions
  digests : Set.InjOn sum256
    {data | ∃ b, .store b ∈ steps ∧ ∃ tx ∈ b.transactions,
      data = tx.serialize gob}
  kept : ∀ before b later, steps = before ++ .store b :: later →
    ∀ hash, Carries gob b hash →
    (∀ b', .store b' ∈ later → ¬ Carries gob b' hash) →
    .deleteBody b.hash b.number ∉ later

variable {gob rlp} {steps : List (Step E)} {b : Block E} {hash : Hash}

/-! ## The tables after one more step -/

/-- The tables after one more step. -/
theorem after_concat (steps : List (Step E)) (s : Step E) (k : Key) :
    after gob rlp (steps ++ [s]) k =
      (lastChange (s.ops.flatMap (Op.changes gob rlp)) k).getD
        (after gob rlp steps k) := by
  rw [after, after, tablesAfter, tablesAfter, List.flatMap_append,
    List.flatMap_append, lastChange_append, List.flatMap_singleton]
  cases lastChange (s.ops.flatMap (Op.changes gob rlp)) k with
  | some v => rfl
  | none => rfl

/-- The changes of storing a block. -/
theorem changes_store (b : Block E) :
    (Step.store b).ops.flatMap (Op.changes gob rlp) =
      ⟨.body b.number b.hash, some ((rlp.encodeBlock b.fields).getD [])⟩ ::
        b.transactions.zipIdx.map
          (fun p => ⟨.txLookup (p.1.hash gob), some (b.entryAt p.2)⟩) := by
  simp [Step.ops, Op.changes]

/-- Storing a block that has the transaction points the entry to it. -/
theorem after_store_of_carries (h : Carries gob b hash) :
    ∃ i tx, b.transactions[i]? = some tx ∧ tx.hash gob = hash ∧
      after gob rlp (steps ++ [.store b]) (.txLookup hash) =
        some (b.entryAt i) := by
  rw [after_concat, changes_store]
  cases hlast : lastChange
      ((⟨.body b.number b.hash, some ((rlp.encodeBlock b.fields).getD [])⟩ :
        Change Key.Value) :: b.transactions.zipIdx.map
          (fun p => ⟨.txLookup (p.1.hash gob), some (b.entryAt p.2)⟩))
      (.txLookup hash) with
  | none =>
      obtain ⟨tx, htx, hhash⟩ := h
      obtain ⟨i, hi⟩ := List.mem_iff_getElem?.mp htx
      have hne := lastChange_eq_none_iff.mp hlast
        ⟨.txLookup (tx.hash gob), some (b.entryAt i)⟩
        (List.mem_cons_of_mem _ (List.mem_map.mpr
          ⟨(tx, i), List.mem_zipIdx_iff_getElem?.mpr hi, rfl⟩))
      exact absurd (congrArg Key.txLookup hhash) hne
  | some v =>
      rcases List.mem_cons.mp (mem_of_lastChange hlast) with hbody | hmem
      · cases hbody
      · obtain ⟨⟨tx, i⟩, hp, heq⟩ := List.mem_map.mp hmem
        obtain rfl : tx.hash gob = hash :=
          Key.txLookup.inj (congrArg Change.entry heq)
        cases heq
        exact ⟨i, tx, List.mem_zipIdx_iff_getElem?.mp hp, rfl, rfl⟩

/-- Other steps leave the entry alone. -/
theorem after_lookup_of_not {s : Step E}
    (h : ∀ b, s = .store b → ¬ Carries gob b hash) :
    after gob rlp (steps ++ [s]) (.txLookup hash) =
      after gob rlp steps (.txLookup hash) := by
  have hnone : lastChange (s.ops.flatMap (Op.changes gob rlp))
      (.txLookup hash) = none := by
    rw [lastChange_eq_none_iff]
    intro c hc
    cases s with
    | store b =>
        rw [changes_store] at hc
        rcases List.mem_cons.mp hc with rfl | hmem
        · intro heq
          cases heq
        · obtain ⟨⟨tx, i⟩, hp, rfl⟩ := List.mem_map.mp hmem
          intro heq
          have hi := List.mem_zipIdx_iff_getElem?.mp hp
          exact h b rfl ⟨tx, List.mem_of_getElem? hi, Key.txLookup.inj heq⟩
    | deleteBody hash number =>
        cases List.mem_singleton.mp hc
        intro heq
        cases heq
  rw [after_concat, hnone]
  rfl

/-- A stored block has its body. -/
theorem after_store_body (steps : List (Step E)) (b : Block E) :
    after gob rlp (steps ++ [.store b]) (.body b.number b.hash) =
      some ((rlp.encodeBlock b.fields).getD []) := by
  have hentries : lastChange (b.transactions.zipIdx.map
      (fun p => (⟨.txLookup (p.1.hash gob), some (b.entryAt p.2)⟩ :
        Change Key.Value))) (.body b.number b.hash) = none := by
    rw [lastChange_eq_none_iff]
    intro c hc heq
    obtain ⟨p, -, rfl⟩ := List.mem_map.mp hc
    cases heq
  rw [after_concat, changes_store, lastChange, hentries]
  exact congrArg (Option.getD · _) (dif_pos rfl)

/-- A deleted body is gone. -/
theorem after_deleteBody (steps : List (Step E)) (hash : Hash)
    (number : UInt64) :
    after gob rlp (steps ++ [.deleteBody hash number]) (.body number hash) =
      none := by
  rw [after_concat]
  simp [Step.ops, Op.changes, lastChange]

/-- A step that neither stores nor deletes there leaves a body alone. -/
theorem after_body_of_ne {s : Step E} {number : UInt64}
    (hstore : ∀ b, s = .store b → ¬ (b.hash = hash ∧ b.number = number))
    (hdelete : s ≠ .deleteBody hash number) :
    after gob rlp (steps ++ [s]) (.body number hash) =
      after gob rlp steps (.body number hash) := by
  have hnone : lastChange (s.ops.flatMap (Op.changes gob rlp))
      (.body number hash) = none := by
    rw [lastChange_eq_none_iff]
    intro c hc heq
    cases s with
    | store b =>
        rw [changes_store] at hc
        rcases List.mem_cons.mp hc with rfl | hmem
        · cases heq
          exact hstore b rfl ⟨rfl, rfl⟩
        · obtain ⟨p, -, rfl⟩ := List.mem_map.mp hmem
          cases heq
    | deleteBody h n =>
        cases List.mem_singleton.mp hc
        cases heq
        exact hdelete rfl
  rw [after_concat, hnone]
  rfl

/-! ## The tables after any steps -/

/-- **THE ENTRY OF A HASH** names a place of the last block that was stored
    with a transaction of that hash; there is none if there was no such
    block. -/
theorem lookup_cases (steps : List (Step E)) (hash : Hash) :
    (after gob rlp steps (.txLookup hash) = none ∧
      ∀ b, .store b ∈ steps → ¬ Carries gob b hash) ∨
    ∃ before b later i tx, steps = before ++ .store b :: later ∧
      b.transactions[i]? = some tx ∧ tx.hash gob = hash ∧
      after gob rlp steps (.txLookup hash) = some (b.entryAt i) ∧
      ∀ b', .store b' ∈ later → ¬ Carries gob b' hash := by
  induction steps using List.reverseRecOn with
  | nil => exact Or.inl ⟨rfl, fun b hb => absurd hb List.not_mem_nil⟩
  | append_singleton steps s ih =>
      by_cases hs : ∃ b, s = .store b ∧ Carries gob b hash
      · obtain ⟨b, rfl, hcarries⟩ := hs
        obtain ⟨i, tx, hi, hhash, hentry⟩ := after_store_of_carries hcarries
        exact Or.inr ⟨steps, b, [], i, tx, rfl, hi, hhash, hentry,
          fun b' hb' => absurd hb' List.not_mem_nil⟩
      · have hnot : ∀ b, s = .store b → ¬ Carries gob b hash :=
          fun b hb hcarries => hs ⟨b, hb, hcarries⟩
        have hlast : ∀ {l : List (Step E)}, (∀ b, .store b ∈ l →
            ¬ Carries gob b hash) → ∀ b, .store b ∈ l ++ [s] →
            ¬ Carries gob b hash := by
          intro l hl b hb
          rcases List.mem_append.mp hb with hb | hb
          · exact hl b hb
          · exact hnot b (List.mem_singleton.mp hb).symm
        rw [after_lookup_of_not hnot]
        rcases ih with ⟨hnone, hall⟩ |
          ⟨before, b, later, i, tx, rfl, hi, hhash, hentry, hlater⟩
        · exact Or.inl ⟨hnone, hlast hall⟩
        · refine Or.inr ⟨before, b, later ++ [s], i, tx, ?_, hi, hhash, hentry,
            hlast hlater⟩
          rw [List.append_assoc, List.cons_append]

/-- **THE BODY OF A BLOCK** that was not deleted is there, or that of a block
    stored in its place. -/
theorem body_of_kept {before later : List (Step E)} {b : Block E}
    (hkept : .deleteBody b.hash b.number ∉ later) :
    ∃ b', (b' = b ∨ .store b' ∈ later) ∧ b'.hash = b.hash ∧
      b'.number = b.number ∧
      after gob rlp (before ++ .store b :: later) (.body b.number b.hash) =
        some ((rlp.encodeBlock b'.fields).getD []) := by
  induction later using List.reverseRecOn with
  | nil => exact ⟨b, Or.inl rfl, rfl, rfl, after_store_body before b⟩
  | append_singleton later s ih =>
      have hassoc : before ++ .store b :: (later ++ [s]) =
          (before ++ .store b :: later) ++ [s] := by simp
      rw [hassoc]
      by_cases hs : ∃ b', s = .store b' ∧ b'.hash = b.hash ∧
          b'.number = b.number
      · obtain ⟨b', rfl, hhash, hnumber⟩ := hs
        refine ⟨b', Or.inr (by simp), hhash, hnumber, ?_⟩
        rw [← hhash, ← hnumber]
        exact after_store_body _ b'
      · obtain ⟨b', hb', hhash, hnumber, hbody⟩ :=
          ih (fun hmem => hkept (List.mem_append_left _ hmem))
        refine ⟨b', ?_, hhash, hnumber, ?_⟩
        · rcases hb' with rfl | hb'
          · exact Or.inl rfl
          · exact Or.inr (List.mem_append_left _ hb')
        · rw [after_body_of_ne (fun b' hb' heq => hs ⟨b', hb', heq⟩) ?_, hbody]
          rintro rfl
          exact hkept (by simp)

/-! ## Looking up -/

/-- Steps that rlp has a form for. -/
theorem encodable_ops (h : ∀ b, .store b ∈ steps →
    (rlp.encodeBlock b.fields).isSome) :
    ∀ op ∈ steps.flatMap Step.ops, op.Encodable rlp := by
  intro op hop
  obtain ⟨s, hs, hop⟩ := List.mem_flatMap.mp hop
  cases s with
  | store b =>
      rcases List.mem_cons.mp hop with rfl | hop
      · exact h b hs
      · cases List.mem_singleton.mp hop
        trivial
  | deleteBody hash number =>
      cases List.mem_singleton.mp hop
      trivial

/-- Nothing is lost of a transaction without nonce and chain id. -/
theorem bare_eq {tx : Transaction E} (h : tx.nonce = 0 ∧ tx.chainId = 0) :
    bare tx = tx := by
  obtain ⟨chainId, originData, nonce⟩ := tx
  obtain ⟨rfl, rfl⟩ := h
  rfl

/-- Transactions of stored blocks with one hash are the same. -/
theorem Orderly.tx_eq (ho : Orderly gob rlp steps) {b b' : Block E}
    {tx tx' : Transaction E} (hb : .store b ∈ steps) (hb' : .store b' ∈ steps)
    (htx : tx ∈ b.transactions) (htx' : tx' ∈ b'.transactions)
    (h : tx.hash gob = tx'.hash gob) : tx = tx' := by
  have hdata : tx.serialize gob = tx'.serialize gob :=
    ho.digests ⟨b, hb, tx, htx, rfl⟩ ⟨b', hb', tx', htx', rfl⟩
      (bytesToHash_sum256_eq_iff.mp h)
  have hevent := (serialize_eq_iff gob).mp hdata
  rw [← bare_eq (ho.plain b hb tx htx), ← bare_eq (ho.plain b' hb' tx' htx')]
  rw [bare, bare, hevent]


/-- An entry leads to the body it names. -/
theorem readTransaction_of_entry {db : Store} {zero : E} {i : ℕ}
    (hreads : Reads rlp zero db (after gob rlp steps))
    (hentry : after gob rlp steps (.txLookup hash) = some (b.entryAt i))
    (hne : b.hash ≠ zeroHash) :
    readTransaction rlp db zero hash =
      (readBlock rlp db zero b.hash b.number).bind
        (fun body => transactionAt (b.entryAt i) body.transactions) := by
  have hread : readTxLookupEntry rlp db hash = b.entryAt i := by
    rw [hreads.txLookupEntry, hentry]
    rfl
  have hne' : (b.entryAt i).blockHash ≠ zeroHash := hne
  rw [readTransaction, hread, if_neg hne']
  rfl

/-- **ONE LOOKUP**: no block ever had the transaction and nothing is found, or
    it is found in a block that is still stored. -/
theorem readTransaction_cases {db : Store} {zero : E}
    (ho : Orderly gob rlp steps)
    (hreads : Reads rlp zero db (after gob rlp steps)) (hash : Hash) :
    ((∀ b, .store b ∈ steps → ¬ Carries gob b hash) ∧
      readTransaction rlp db zero hash = .ok none) ∨
    ∃ b i tx, StillStored steps b ∧ b.transactions[i]? = some tx ∧
      tx.hash gob = hash ∧ readTransaction rlp db zero hash =
        .ok (some (tx, b.hash, b.number, i)) := by
  rcases @lookup_cases E gob rlp steps hash with ⟨hnone, hall⟩ |
    ⟨before, b, later, i, tx, hsteps, hi, hhash, hentry, hlater⟩
  · refine Or.inl ⟨hall, ?_⟩
    have hread : readTxLookupEntry rlp db hash = ⟨zeroHash, 0, 0⟩ := by
      rw [hreads.txLookupEntry, hnone]
      rfl
    rw [readTransaction, hread, if_pos rfl]
  · have hmem : .store b ∈ steps := by simp [hsteps]
    have htx : tx ∈ b.transactions := List.mem_of_getElem? hi
    have hkept := ho.kept before b later hsteps hash ⟨tx, htx, hhash⟩ hlater
    refine Or.inr ⟨b, i, tx, ⟨before, later, hsteps, hkept⟩, hi, hhash, ?_⟩
    -- the body may be that of a later block in the same place
    obtain ⟨b', hb', hhash', hnumber', hbody⟩ := body_of_kept hkept
    have hmem' : .store b' ∈ steps := by
      rcases hb' with rfl | hb'
      · exact hmem
      · simp [hsteps, hb']
    rw [← hsteps] at hbody
    obtain ⟨data, hdata⟩ :=
      Option.isSome_iff_exists.mp (ho.encodable b' hmem')
    rw [hdata] at hbody
    have hblock := hreads.block b.hash b.number b' data hdata hbody
    have hget : b'.bare.transactions[i]? = some tx := by
      rw [Block.bare, ho.position b' b hmem' hmem hhash' hnumber']
      simp only [List.getElem?_map, hi, Option.map_some]
      rw [bare_eq (ho.plain b hmem tx htx)]
    rw [readTransaction_of_entry hreads hentry (ho.hash_ne b hmem), hblock]
    show transactionAt _ b'.bare.transactions = _
    rw [transactionAt, show b'.bare.transactions[(b.entryAt i).index]? = some tx
      from hget]
    rfl

/-- **EVERY STORED TRANSACTION IS FOUND**: after any orderly steps a lookup
    never panics, finds every transaction of a block that is still stored as
    it was, in such a block, and finds nothing for any other hash. -/
theorem transaction_found (hrlp : rlp.Faithful) (zero : E)
    (ho : Orderly gob rlp steps) :
    ∃ db, runOps gob rlp (fun _ => none) (steps.flatMap Step.ops) = .ok db ∧
      (∀ hash, ∃ r, readTransaction rlp db zero hash = .ok r) ∧
      (∀ b, StillStored steps b → ∀ tx ∈ b.transactions,
        ∃ b' i, StillStored steps b' ∧ b'.transactions[i]? = some tx ∧
          readTransaction rlp db zero (tx.hash gob) =
            .ok (some (tx, b'.hash, b'.number, i))) ∧
      ∀ hash, (∀ b, StillStored steps b → ¬ Carries gob b hash) →
        readTransaction rlp db zero hash = .ok none := by
  obtain ⟨db, hrun, hholds⟩ := holds_run gob rlp (encodable_ops ho.encodable)
  have hreads : Reads rlp zero db (after gob rlp steps) :=
    reads_of_holds hrlp zero hholds
      (stored_tablesAfter (encodable_ops ho.encodable))
  have hcases := readTransaction_cases ho hreads
  refine ⟨db, hrun, fun hash => ?_, fun b hb tx htx => ?_, fun hash hno => ?_⟩
  · rcases hcases hash with ⟨-, hread⟩ | ⟨b, i, tx, -, -, -, hread⟩
    · exact ⟨_, hread⟩
    · exact ⟨_, hread⟩
  · obtain ⟨before, later, hsteps, -⟩ := hb
    have hmem : .store b ∈ steps := by simp [hsteps]
    rcases hcases (tx.hash gob) with ⟨hnone, -⟩ |
      ⟨b', i, tx', hb', hi, hhash, hread⟩
    · exact absurd ⟨tx, htx, rfl⟩ (hnone b hmem)
    · obtain ⟨before', later', hsteps', -⟩ := id hb'
      have hmem' : .store b' ∈ steps := by simp [hsteps']
      obtain rfl : tx' = tx :=
        ho.tx_eq hmem' hmem (List.mem_of_getElem? hi) htx hhash
      exact ⟨b', i, hb', hi, hread⟩
  · rcases hcases hash with ⟨-, hread⟩ | ⟨b, i, tx, hb, hi, hhash, -⟩
    · exact hread
    · exact absurd ⟨tx, List.mem_of_getElem? hi, hhash⟩ (hno b hb)

end Steps

/-! ## Samples -/

/-- One block, stored. -/
theorem orderly_sample : Orderly byteGob sampleRlp [.store sampleBlock] := by
  have honly : ∀ b, Step.store b ∈ [Step.store sampleBlock] →
      b = sampleBlock := by
    intro b hb
    cases List.mem_singleton.mp hb
    rfl
  refine ⟨?_, ?_, ?_, ?_, ?_, ?_⟩
  · intro b hb
    rw [honly b hb]
    rfl
  · intro b hb
    rw [honly b hb]
    decide
  · intro b hb
    rw [honly b hb]
    decide
  · intro b b' hb hb' _ _
    rw [honly b hb, honly b' hb']
  -- the two payloads of the block have different digests
  · have hdigests : sum256 [7] ≠ sum256 [8] := by decide +kernel
    have hdata : ∀ b, Step.store b ∈ [Step.store sampleBlock] →
        ∀ tx ∈ b.transactions, tx.serialize byteGob = [7] ∨
          tx.serialize byteGob = [8] := by
      intro b hb tx htx
      rw [honly b hb] at htx
      rw [serialize_byteGob]
      rcases List.mem_cons.mp htx with rfl | htx
      · exact Or.inl rfl
      · cases List.mem_singleton.mp htx
        exact Or.inr rfl
    rintro _ ⟨b, hb, tx, htx, rfl⟩ _ ⟨b', hb', tx', htx', rfl⟩ heq
    rcases hdata b hb tx htx with h | h
    · rcases hdata b' hb' tx' htx' with h' | h'
      · rw [h, h']
      · rw [h, h'] at heq
        exact absurd heq hdigests
    · rcases hdata b' hb' tx' htx' with h' | h'
      · rw [h, h'] at heq
        exact absurd heq.symm hdigests
      · rw [h, h']
  · intro before b later hsteps hash _ _ hmem
    have hlen := congrArg List.length hsteps
    simp only [List.length_append, List.length_cons, List.length_nil] at hlen
    obtain rfl : later = [] := List.length_eq_zero_iff.mp (by omega)
    exact absurd hmem List.not_mem_nil

/-- The second transaction of a block is found under its hash. -/
theorem transaction_found_sample :
    ∃ db r, runOps byteGob sampleRlp (fun _ => none)
        [.writeBlock sampleBlock.hash 1 sampleBlock,
          .writeTxLookupEntries sampleBlock] = .ok db ∧
      readTransaction sampleRlp db 0 ((newTransaction 8 0 0).hash byteGob) =
        .ok (some r) ∧
      r.1 = newTransaction 8 0 0 := by
  obtain ⟨db, hrun, -, hfound, -⟩ :=
    transaction_found (knownRlp_faithful _ _) 0 orderly_sample
  obtain ⟨b, i, -, -, hread⟩ := hfound sampleBlock
    ⟨[], [], rfl, List.not_mem_nil⟩ (newTransaction 8 0 0) (by decide)
  exact ⟨db, _, hrun, hread, rfl⟩

/-- A block with one transaction that has a nonce and a chain id. -/
def numberedBlock : Block UInt8 :=
  { sampleBlock with transactions := [newTransaction 7 1 1] }

/-- A coder that knows it. -/
def numberedRlp : Rlp UInt8 := knownRlp [numberedBlock.fields] []

/-- The hash of its transaction. -/
def numberedHash : Hash := (newTransaction 7 1 1).hash byteGob

/-- The entry of the only transaction. -/
theorem entry_numbered :
    after byteGob numberedRlp [.store numberedBlock] (.txLookup numberedHash) =
      some (numberedBlock.entryAt 0) := by
  obtain ⟨i, tx, hi, -, hentry⟩ := @after_store_of_carries UInt8 byteGob
    numberedRlp [] numberedBlock numberedHash
    ⟨newTransaction 7 1 1, List.mem_singleton_self _, rfl⟩
  have hzero : i = 0 := by
    have hlt : i < 1 := (List.getElem?_eq_some_iff.mp hi).1
    omega
  rw [hzero] at hentry
  exact hentry

/-- **WHAT A LOOKUP LOSES**: the transaction of a stored block comes back
    without its nonce and its chain id; and once the body is deleted, the entry
    that is left makes the lookup panic. -/
theorem transaction_lost :
    (∃ db, runOps byteGob numberedRlp (fun _ => none)
        (Step.store numberedBlock).ops = .ok db ∧
      readTransaction numberedRlp db 0 numberedHash =
        .ok (some (newTransaction 7 0 0, numberedBlock.hash, 1, 0)) ∧
      newTransaction (7 : UInt8) 0 0 ≠ newTransaction 7 1 1) ∧
    ∃ db, runOps byteGob numberedRlp (fun _ => none)
        ((Step.store numberedBlock).ops ++
          (Step.deleteBody numberedBlock.hash 1).ops) = .ok db ∧
      readTransaction numberedRlp db 0 numberedHash =
        .error (.panic .keyNotFound) := by
  have hne : numberedBlock.hash ≠ zeroHash := by decide
  have hreads : ∀ steps : List (Step UInt8),
      (∀ b, .store b ∈ steps → b = numberedBlock) →
      ∃ db, runOps byteGob numberedRlp (fun _ => none)
          (steps.flatMap Step.ops) = .ok db ∧
        Reads numberedRlp 0 db (after byteGob numberedRlp steps) := by
    intro steps honly
    have henc : ∀ op ∈ steps.flatMap Step.ops, op.Encodable numberedRlp :=
      encodable_ops (fun b hb => by rw [honly b hb]; rfl)
    obtain ⟨db, hrun, hholds⟩ := holds_run byteGob numberedRlp henc
    exact ⟨db, hrun, reads_of_holds (knownRlp_faithful _ _) 0 hholds
      (stored_tablesAfter henc)⟩
  constructor
  -- the block is there, but its transaction comes back without nonce and chain
  · obtain ⟨db, hrun, hread⟩ := hreads [.store numberedBlock]
      (fun b hb => Step.store.inj (List.mem_singleton.mp hb))
    refine ⟨db, hrun, ?_, by decide⟩
    have hblock := hread.block numberedBlock.hash numberedBlock.number
      numberedBlock _ rfl (after_store_body [] numberedBlock)
    rw [readTransaction_of_entry hread entry_numbered hne, hblock]
    rfl
  -- the entry outlives the body it points into
  · obtain ⟨db, hrun, hread⟩ := hreads
      [.store numberedBlock, .deleteBody numberedBlock.hash 1] (by
        intro b hb
        rcases List.mem_cons.mp hb with hb | hb
        · exact Step.store.inj hb
        · cases List.mem_singleton.mp hb)
    refine ⟨db, hrun, ?_⟩
    have hentry : after byteGob numberedRlp
        [.store numberedBlock, .deleteBody numberedBlock.hash 1]
        (.txLookup numberedHash) = some (numberedBlock.entryAt 0) := by
      rw [← entry_numbered]
      exact @after_lookup_of_not UInt8 byteGob numberedRlp
        [.store numberedBlock] numberedHash _ (fun b hb => by cases hb)
    have hgone : after byteGob numberedRlp
        [.store numberedBlock, .deleteBody numberedBlock.hash 1]
        (.body numberedBlock.number numberedBlock.hash) = none :=
      after_deleteBody [.store numberedBlock] numberedBlock.hash 1
    rw [readTransaction_of_entry hread hentry hne,
      hread.noBlock _ _ hgone]
    rfl

end RelayerLookup
