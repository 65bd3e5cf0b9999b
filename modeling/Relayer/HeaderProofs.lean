import Relayer.RangeProofs
import Relayer.RawdbProofs

/-! # What stored headers leave behind

    `WriteHeader` of `chain/rawdb/accessors_chain.go` puts two records one after
    the other, and only logs what goes wrong.  Both keys are made from the
    parent hash of the header, not from its own hash.

    * `keysOf` and `recordsOf` are the two records of a header, and
      `writeHeaders_eq` says that calls one after another assign them;
    * **`headers_kept_iff`**: all of the written headers are still there if
      and only if each can be encoded and no two have the same parent;
    * **`competing_header_lost`**: of two headers with one parent, the first
      is lost;
    * `writeHeaderWith` is `WriteHeader` with the errors of the two `Put`
      calls, and **`failed_write_intact_iff`** says which of the failed calls
      leave the store as it was;
    * **`failed_write_tears`**: one that leaves a number without its header,
      and one that empties a header. -/

namespace RelayerHeader

open Maps Ranges RelayerLogCache RelayerRawdb RelayerStore

variable {E : Type} {rlp : Rlp E}

/-! ## The records of a header -/

/-- The entries that `WriteHeader` puts. -/
def keysOf (header : Header) : List Key :=
  [.headerNumber header.parentHash, .header header.number header.parentHash]

/-- The two records, with no bytes for a header that can not be encoded. -/
def recordsOf (rlp : Rlp E) (header : Header) : List (Bytes × Bytes) :=
  [(headerNumberKey header.parentHash, encodeBlockNumber header.number),
    (headerKey header.number header.parentHash,
      (rlp.encodeHeader header).getD [])]

/-- `WriteHeader` calls one after another. -/
def writeHeaders (rlp : Rlp E) (db : Store) (headers : List Header) : Store :=
  headers.foldl (writeHeader rlp) db

/-- The headers written are their records written, in that order. -/
theorem writeHeaders_eq (rlp : Rlp E) (db : Store) (headers : List Header) :
    writeHeaders rlp db headers =
      (headers.flatMap (recordsOf rlp)).foldl (fun m p => set m p.1 p.2) db := by
  induction headers generalizing db with
  | nil => rfl
  | cons header headers ih =>
      rw [List.flatMap_cons, List.foldl_append]
      exact ih _

/-- The keys written are those of the headers. -/
theorem map_fst_records (rlp : Rlp E) (headers : List Header) :
    (headers.flatMap (recordsOf rlp)).map Prod.fst =
      (headers.flatMap keysOf).map Key.bytes := by
  rw [List.map_flatMap, List.map_flatMap]
  rfl

/-- Headers of different parents share no entry. -/
theorem nodup_keys {headers : List Header}
    (hparents : (headers.map (·.parentHash)).Nodup) :
    (headers.flatMap keysOf).Nodup := by
  refine List.nodup_flatMap.mpr ⟨?_, ?_⟩
  · intro header _
    simp [keysOf]
  · refine (List.pairwise_map.mp hparents).imp ?_
    intro h h' hne k hk hk'
    simp only [keysOf, List.mem_cons, List.not_mem_nil, or_false] at hk hk'
    rcases hk with rfl | rfl
    · rcases hk' with heq | heq
      · exact hne (Key.headerNumber.inj heq)
      · cases heq
    · rcases hk' with heq | heq
      · cases heq
      · exact hne (Key.header.inj heq).2

/-- Where the parents differ, every record is as it was written. -/
theorem record_kept (rlp : Rlp E) {headers : List Header}
    (hparents : (headers.map (·.parentHash)).Nodup) (db : Store)
    {header : Header} (hmem : header ∈ headers) {key data : Bytes}
    (hrecord : (key, data) ∈ recordsOf rlp header) :
    writeHeaders rlp db headers key = some data := by
  rw [writeHeaders_eq]
  refine foldl_set_of_mem ?_ (List.mem_flatMap.mpr ⟨header, hmem, hrecord⟩) db
  rw [map_fst_records]
  exact (nodup_keys hparents).map Key.bytes_inj

/-! ## Reading them back -/

/-- A header's record is read back through the codec. -/
theorem readHeader_of_record {db : Store} (header : Header)
    (h : db (headerKey header.number header.parentHash) =
      some ((rlp.encodeHeader header).getD [])) :
    readHeader rlp db header.parentHash header.number =
      readDecoded rlp.decodeHeader ((rlp.encodeHeader header).getD []) := by
  rw [readHeader, readHeaderRLP, getData, Store.get, h]
  rfl

/-- The number under a hash is read back. -/
theorem readHeaderNumber_of_record {db : Store} (header : Header)
    (h : db (headerNumberKey header.parentHash) =
      some (encodeBlockNumber header.number)) :
    readHeaderNumber db header.parentHash = some header.number := by
  have hdata : getData db (headerNumberKey header.parentHash) =
      encodeBlockNumber header.number := by
    rw [getData, Store.get, h]
    rfl
  rw [readHeaderNumber, hdata, length_encodeBlockNumber,
    decode_encodeBlockNumber]
  rfl

/-- What is stored for a header gives it back if it could be encoded. -/
theorem readDecoded_header (hrlp : rlp.Faithful) (header : Header) :
    readDecoded rlp.decodeHeader ((rlp.encodeHeader header).getD []) =
      some header ↔ (rlp.encodeHeader header).isSome := by
  cases henc : rlp.encodeHeader header with
  | none => simp [readDecoded]
  | some data =>
      obtain ⟨hne, hdec⟩ := hrlp.header henc
      simp [readDecoded, hne, hdec]

/-- A header is readable under the hash and number that it was stored with. -/
def Readable (rlp : Rlp E) (db : Store) (header : Header) : Prop :=
  readHeader rlp db header.parentHash header.number = some header ∧
    readHeaderNumber db header.parentHash = some header.number

/-- One hash has one number, and a hash with its number one header. -/
theorem Readable.unique {db : Store} {h h' : Header} (hh : Readable rlp db h)
    (hh' : Readable rlp db h') (hparent : h.parentHash = h'.parentHash) :
    h = h' := by
  have hnumber : h.number = h'.number := by
    have hread := hh.2
    rw [hparent, hh'.2] at hread
    exact (Option.some.inj hread).symm
  have hread := hh.1
  rw [hparent, hnumber, hh'.1] at hread
  exact (Option.some.inj hread).symm

/-- **HEADERS BY THEIR PARENT**: of different headers that are written one
    after another, in any order and into any store, all are readable if and
    only if each can be encoded and no two have the same parent. -/
theorem headers_kept_iff (hrlp : rlp.Faithful) (db : Store)
    {headers : List Header} (hdistinct : headers.Nodup) :
    (∀ header ∈ headers,
      Readable rlp (writeHeaders rlp db headers) header) ↔
    (∀ header ∈ headers, (rlp.encodeHeader header).isSome) ∧
      (headers.map (·.parentHash)).Nodup := by
  -- where the parents differ, what is read is decided by the encoder alone
  have hread : (headers.map (·.parentHash)).Nodup → ∀ header ∈ headers,
      (Readable rlp (writeHeaders rlp db headers) header ↔
        (rlp.encodeHeader header).isSome) := by
    intro hparents header hmem
    have hnumber := record_kept rlp hparents db hmem
      (List.mem_cons_self ..)
    have hheader := record_kept rlp hparents db hmem
      (List.mem_cons_of_mem _ (List.mem_cons_self ..))
    rw [Readable, readHeader_of_record header hheader, readDecoded_header hrlp]
    exact and_iff_left (readHeaderNumber_of_record header hnumber)
  constructor
  · intro hall
    have hparents : (headers.map (·.parentHash)).Nodup :=
      hdistinct.map_on fun h hmem h' hmem' heq =>
        (hall h hmem).unique (hall h' hmem') heq
    exact ⟨fun header hmem => (hread hparents header hmem).mp (hall header hmem),
      hparents⟩
  · rintro ⟨henc, hparents⟩ header hmem
    exact (hread hparents header hmem).mpr (henc header hmem)

/-- A header of block 3 of another parent, and one that competes with
    `sampleHeader 0`. -/
def otherParent : Header := { sampleHeader 0 with parentHash := bigToHash 5 }

def competing : Header := { sampleHeader 0 with time := 2222222222 }

/-- A coder that knows the three. -/
def headerRlp : Rlp UInt8 :=
  knownRlp [] [sampleHeader 0, otherParent, competing]

/-- Two headers of different parents are both kept. -/
theorem headers_kept_two :
    Readable headerRlp (writeHeaders headerRlp (fun _ => none)
      [sampleHeader 0, otherParent]) (sampleHeader 0) ∧
    Readable headerRlp (writeHeaders headerRlp (fun _ => none)
      [sampleHeader 0, otherParent]) otherParent := by
  have hdistinct : [sampleHeader 0, otherParent].Nodup := by decide
  have hrlp : headerRlp.Faithful := knownRlp_faithful _ _
  have hkept := (headers_kept_iff hrlp (fun _ => none) hdistinct).mpr (by decide)
  exact ⟨hkept _ (List.mem_cons_self ..),
    hkept _ (List.mem_cons_of_mem _ (List.mem_cons_self ..))⟩

/-- **A COMPETING HEADER REPLACES**: after two headers of one parent and
    number, the second is read in place of the first. -/
theorem competing_header_lost :
    sampleHeader 0 ≠ competing ∧
    (sampleHeader 0).parentHash = competing.parentHash ∧
    (sampleHeader 0).number = competing.number ∧
    readHeader headerRlp
      (writeHeaders headerRlp (fun _ => none) [sampleHeader 0, competing])
      (sampleHeader 0).parentHash (sampleHeader 0).number = some competing := by
  refine ⟨by decide, rfl, rfl, ?_⟩
  have hlast : writeHeaders headerRlp (fun _ => none)
      [sampleHeader 0, competing]
      (headerKey competing.number competing.parentHash) =
        some ((headerRlp.encodeHeader competing).getD []) := by
    rw [writeHeaders, List.foldl_cons, List.foldl_cons, List.foldl_nil]
    exact set_self
  refine (readHeader_of_record competing hlast).trans ?_
  exact (readDecoded_header (knownRlp_faithful _ _) competing).mpr (by decide)

/-! ## Failed writes -/

/-- `WriteHeader` with the errors of its two `Put` calls, which are logged. -/
def writeHeaderWith (rlp : Rlp E) (db : Store) (header : Header)
    (numberFault headerFault : Option String) : Store :=
  let db := (Store.put db (headerNumberKey header.parentHash)
    (encodeBlockNumber header.number) numberFault).1
  (Store.put db (headerKey header.number header.parentHash)
    ((rlp.encodeHeader header).getD []) headerFault).1

theorem writeHeaderWith_none (rlp : Rlp E) (db : Store) (header : Header) :
    writeHeaderWith rlp db header none none = writeHeader rlp db header := rfl

/-- A `Put` that failed, or that put what was there, changes nothing. -/
theorem put_intact_iff (db : Store) (key value : Bytes)
    (fault : Option String) :
    (Store.put db key value fault).1 = db ↔
      fault.isSome ∨ db key = some value := by
  cases fault with
  | some text => simp [Store.put, attempt]
  | none =>
      show set db key value = db ↔ _
      constructor
      · intro heq
        right
        rw [← congrFun heq key, set_self]
      · rintro (hfault | hvalue)
        · cases hfault
        · exact Function.update_eq_self_iff.mpr hvalue.symm

/-- What a `Put` leaves under another key. -/
theorem put_of_ne (db : Store) {key key' : Bytes} (value : Bytes)
    (fault : Option String) (hne : key' ≠ key) :
    (Store.put db key value fault).1 key' = db key' := by
  cases fault with
  | some text => rfl
  | none => exact set_of_ne hne

/-- The two records of a header have different keys. -/
theorem headerKey_ne (hash hash' : Hash) (number : UInt64) :
    headerKey number hash ≠ headerNumberKey hash' := by
  intro heq
  have hkey : Key.header number hash = Key.headerNumber hash' :=
    Key.bytes_inj heq
  cases hkey

/-- **FAILED WRITES**: whatever fails of a call, the store is as it was if and
    only if each of the two records failed to be put or was there already; the
    record of a header that can not be encoded is empty. -/
theorem failed_write_intact_iff (rlp : Rlp E) (db : Store) (header : Header)
    (numberFault headerFault : Option String) :
    writeHeaderWith rlp db header numberFault headerFault = db ↔
      (numberFault.isSome ∨ db (headerNumberKey header.parentHash) =
        some (encodeBlockNumber header.number)) ∧
      (headerFault.isSome ∨ db (headerKey header.number header.parentHash) =
        some ((rlp.encodeHeader header).getD [])) := by
  have hne := headerKey_ne header.parentHash header.parentHash header.number
  rw [← put_intact_iff, ← put_intact_iff, writeHeaderWith]
  constructor
  · intro heq
    have hfirst : (Store.put db (headerNumberKey header.parentHash)
        (encodeBlockNumber header.number) numberFault).1 = db := by
      funext key
      by_cases hkey : key = headerNumberKey header.parentHash
      · -- the second put does not reach the key of the number
        subst hkey
        have hat := congrFun heq (headerNumberKey header.parentHash)
        rwa [put_of_ne _ _ _ hne.symm] at hat
      · exact put_of_ne db _ _ hkey
    refine ⟨hfirst, ?_⟩
    rwa [hfirst] at heq
  · rintro ⟨hfirst, hsecond⟩
    rw [hfirst, hsecond]

/-- **TORN AND EMPTIED RECORDS**: when the second `Put` fails, a new store has
    the number of a hash without its header; and a header with a negative
    epoch, which has no encoding, empties the one stored before. -/
theorem failed_write_tears :
    (readHeaderNumber (writeHeaderWith headerRlp (fun _ => none)
        (sampleHeader 0) none (some "no space")) zeroHash = some 3 ∧
      readHeader headerRlp (writeHeaderWith headerRlp (fun _ => none)
        (sampleHeader 0) none (some "no space")) zeroHash 3 = none) ∧
    headerRlp.encodeHeader (sampleHeader (-1)) = none ∧
    readHeader headerRlp (writeHeader headerRlp (fun _ => none)
      (sampleHeader 0)) zeroHash 3 = some (sampleHeader 0) ∧
    writeHeader headerRlp (writeHeader headerRlp (fun _ => none)
      (sampleHeader 0)) (sampleHeader (-1)) (headerKey 3 zeroHash) =
        some [] := by
  refine ⟨⟨?_, ?_⟩, by decide, ?_, ?_⟩
  · refine readHeaderNumber_of_record (sampleHeader 0) ?_
    show set (fun _ => none) (headerNumberKey zeroHash) (encodeBlockNumber 3)
      (headerNumberKey zeroHash) = _
    exact set_self
  · have hnone : writeHeaderWith headerRlp (fun _ => none) (sampleHeader 0)
        none (some "no space") (headerKey 3 zeroHash) = none :=
      put_of_ne (fun _ => none) (encodeBlockNumber 3) none
        (headerKey_ne zeroHash zeroHash 3)
    rw [readHeader, readHeaderRLP, getData, Store.get, hnone]
    rfl
  · refine (readHeader_of_record (sampleHeader 0) set_self).trans ?_
    exact (readDecoded_header (knownRlp_faithful _ _) _).mpr (by decide)
  · exact set_self.trans (by decide)

end RelayerHeader
