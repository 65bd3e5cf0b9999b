import Relayer.TransactionProofs

/-! # The Merkle tree of a block

    `chain/merkle_tree.go` and the hash of a block of `chain/block.go`.  The
    tree is built level by level from the hashes of the items; an odd list is
    made even by its last item, and the number of levels is half the number of
    items, so that the construction runs out of its slice for most lengths.

    * `root_isSome_iff`: it is defined for one to four items, and
      **`merkle_tree_correct_iff`**: there it is the tree that it is to be
      (`reference`);
    * **`root_eq_iff`**: when two lists have the same root, for a hash that has
      no collision among the strings the two trees hash;
    * **`block_hash_binds`**: lists of the same length are bound by the root,
      and the events of a block by its hash;
    * **`merkle_collisions`**: lists that are not. -/

namespace RelayerMerkle

open RelayerLogCache RelayerTransaction Sha256

/-! ## The tree -/

/-- `MerkleNode`: a leaf has no children. -/
inductive MerkleNode where
  | leaf (data : List UInt8)
  | inner (left right : MerkleNode) (data : List UInt8)

/-- `MerkleNode.Data`. -/
def MerkleNode.data : MerkleNode → List UInt8
  | .leaf data => data
  | .inner _ _ data => data

/-- The list, with its last item once more if its length is odd. -/
def pad (data : List (List UInt8)) : List (List UInt8) :=
  if data.length % 2 ≠ 0 then data ++ data.getLast?.toList else data

section Tree

variable (hash : List UInt8 → List UInt8)

/-- `NewMerkleNode(nil, nil, data)`. -/
def newLeaf (data : List UInt8) : MerkleNode := .leaf (hash data)

/-- `NewMerkleNode(left, right, nil)`. -/
def newInner (left right : MerkleNode) : MerkleNode :=
  .inner left right (hash (left.data ++ right.data))

/-- The inner loop: one level of the tree; `none` is an index that is out of
    range. -/
def newLevel : List MerkleNode → Option (List MerkleNode)
  | [] => some []
  | [_] => none
  | left :: right :: nodes =>
      (newLevel nodes).map (newInner hash left right :: ·)

/-- The outer loop. -/
def levels : ℕ → List MerkleNode → Option (List MerkleNode)
  | 0, nodes => some nodes
  | i + 1, nodes => (newLevel hash nodes).bind (levels i)

/-- `NewMerkleTree`: its root node. -/
def newMerkleTree (data : List (List UInt8)) : Option MerkleNode :=
  let data := pad data
  (levels hash (data.length / 2) (data.map (newLeaf hash))).bind List.head?

/-- The data of the root. -/
def root (data : List (List UInt8)) : Option (List UInt8) :=
  (newMerkleTree hash data).map MerkleNode.data

/-! ## Where it is defined -/

/-- A level has half the nodes of the one below. -/
theorem length_newLevel {nodes level : List MerkleNode}
    (h : newLevel hash nodes = some level) :
    nodes.length = 2 * level.length := by
  induction nodes using newLevel.induct generalizing level with
  | case1 =>
      cases h
      rfl
  | case2 => cases h
  | case3 left right nodes ih =>
      obtain ⟨rest, hrest, rfl⟩ := Option.map_eq_some_iff.mp h
      have hlength := ih hrest
      rw [List.length_cons, List.length_cons, List.length_cons, hlength]
      omega

/-- After `i` levels the `2 ^ i`-th part is left. -/
theorem length_levels {i : ℕ} {nodes top : List MerkleNode}
    (h : levels hash i nodes = some top) :
    nodes.length = 2 ^ i * top.length := by
  induction i generalizing nodes with
  | zero =>
      cases h
      simp
  | succ i ih =>
      obtain ⟨level, hlevel, htop⟩ := Option.bind_eq_some_iff.mp h
      rw [length_newLevel hash hlevel, ih htop]
      ring

/-- A padded list is even. -/
theorem length_pad (data : List (List UInt8)) :
    (pad data).length = data.length + data.length % 2 := by
  rw [pad]
  split
  · rename_i hodd
    cases data with
    | nil => exact absurd rfl hodd
    | cons d ds =>
        rw [List.length_append, List.getLast?_eq_some_getLast (by simp)]
        simp only [Option.toList_some, List.length_singleton]
        omega
  · omega

/-- A tree needs two or four items, after padding. -/
theorem length_of_isSome {data : List (List UInt8)}
    (h : (newMerkleTree hash data).isSome = true) :
    (pad data).length = 2 ∨ (pad data).length = 4 := by
  obtain ⟨node, hnode⟩ := Option.isSome_iff_exists.mp h
  obtain ⟨top, htop, hhead⟩ := Option.bind_eq_some_iff.mp hnode
  have hlength := length_levels hash htop
  rw [List.length_map] at hlength
  have hpos : 1 ≤ top.length := by
    cases top with
    | nil => cases hhead
    | cons _ _ => simp
  have heven : (pad data).length % 2 = 0 := by
    rw [length_pad]
    omega
  -- `2 ^ k ≤ 2 * k` only for `k = 1` and `k = 2`
  obtain ⟨k, hk⟩ : ∃ k, (pad data).length = 2 * k :=
    ⟨(pad data).length / 2, by omega⟩
  rw [hk, Nat.mul_div_cancel_left _ (by decide)] at hlength
  have hle : 2 ^ k ≤ 2 * k := by
    rw [hlength]
    exact Nat.le_mul_of_pos_right _ hpos
  have hsmall : k < 3 := by
    by_contra hge
    obtain ⟨j, rfl⟩ : ∃ j, k = j + 3 := ⟨k - 3, by omega⟩
    have hlt : j < 2 ^ j := Nat.lt_two_pow_self
    have hpow : 2 ^ (j + 3) = 8 * 2 ^ j := by ring
    omega
  have hk0 : k ≠ 0 := by
    rintro rfl
    simp at hle
  omega

/-! ## The roots -/

theorem root_two {data : List (List UInt8)} {a b : List UInt8}
    (h : pad data = [a, b]) :
    root hash data = some (hash (hash a ++ hash b)) := by
  simp [root, newMerkleTree, h, levels, newLevel, newLeaf, newInner,
    MerkleNode.data]

theorem root_four {data : List (List UInt8)} {a b c d : List UInt8}
    (h : pad data = [a, b, c, d]) :
    root hash data = some (hash (hash (hash a ++ hash b) ++
      hash (hash c ++ hash d))) := by
  simp [root, newMerkleTree, h, levels, newLevel, newLeaf, newInner,
    MerkleNode.data]

/-- A tree has two or four items, after padding. -/
theorem pad_cases {data : List (List UInt8)}
    (h : (root hash data).isSome = true) :
    (∃ a b, pad data = [a, b]) ∨ ∃ a b c d, pad data = [a, b, c, d] := by
  rw [root, Option.isSome_map] at h
  rcases length_of_isSome hash h with hlength | hlength
  · exact Or.inl (List.length_eq_two.mp hlength)
  · exact Or.inr (List.length_eq_four.mp hlength)

/-- **WHERE THE TREE IS DEFINED**: for one to four items. -/
theorem root_isSome_iff {data : List (List UInt8)} :
    (root hash data).isSome = true ↔ 1 ≤ data.length ∧ data.length ≤ 4 := by
  have hlength := length_pad data
  constructor
  · intro h
    rw [root, Option.isSome_map] at h
    have hpadded := length_of_isSome hash h
    omega
  · intro h
    have hpadded : (pad data).length = 2 ∨ (pad data).length = 4 := by omega
    rcases hpadded with htwo | hfour
    · obtain ⟨a, b, hdata⟩ := List.length_eq_two.mp htwo
      rw [root_two hash hdata, Option.isSome_some]
    · obtain ⟨a, b, c, d, hdata⟩ := List.length_eq_four.mp hfour
      rw [root_four hash hdata, Option.isSome_some]

/-! ## The strings that are hashed -/

/-- The strings that are hashed for the next level. -/
def pairs : List MerkleNode → List (List UInt8)
  | left :: right :: nodes => (left.data ++ right.data) :: pairs nodes
  | _ => []

/-- The strings that are hashed for the levels above some nodes. -/
def hashedAbove : ℕ → List MerkleNode → List (List UInt8)
  | 0, _ => []
  | i + 1, nodes =>
      pairs nodes ++ ((newLevel hash nodes).map (hashedAbove i)).getD []

/-- The strings that are hashed for a tree. -/
def hashed (data : List (List UInt8)) : List (List UInt8) :=
  pad data ++
    hashedAbove hash ((pad data).length / 2) ((pad data).map (newLeaf hash))

theorem hashed_two {data : List (List UInt8)} {a b : List UInt8}
    (h : pad data = [a, b]) :
    hashed hash data = [a, b, hash a ++ hash b] := by
  simp [hashed, h, hashedAbove, pairs, newLevel, newLeaf, MerkleNode.data]

theorem hashed_four {data : List (List UInt8)} {a b c d : List UInt8}
    (h : pad data = [a, b, c, d]) :
    hashed hash data = [a, b, c, d, hash a ++ hash b, hash c ++ hash d,
      hash (hash a ++ hash b) ++ hash (hash c ++ hash d)] := by
  simp [hashed, h, hashedAbove, pairs, newLevel, newLeaf, newInner,
    MerkleNode.data]

/-! ## Lists with the same root -/

/-- The items of `data` are the strings of the level above the items of
    `data'`. -/
def Nested (data data' : List (List UInt8)) : Prop :=
  ∃ a b c d, pad data = [hash a ++ hash b, hash c ++ hash d] ∧
    pad data' = [a, b, c, d]

variable {hash}

/-- A root is a hash. -/
theorem root_eq_some {data : List (List UInt8)} {r : List UInt8}
    (h : root hash data = some r) : ∃ s, r = hash s := by
  have hdefined : (root hash data).isSome = true := by rw [h]; rfl
  rcases pad_cases hash hdefined with ⟨a, b, hdata⟩ | ⟨a, b, c, d, hdata⟩
  · rw [root_two hash hdata] at h
    exact ⟨_, (Option.some.inj h).symm⟩
  · rw [root_four hash hdata] at h
    exact ⟨_, (Option.some.inj h).symm⟩

section Roots

variable (hlength : ∀ x, (hash x).length = 32)

include hlength

/-- A pair of hashes determines the two strings, when they have no
    collision. -/
theorem append_hash_eq_iff {S : Set (List UInt8)} (hinj : Set.InjOn hash S)
    {a b c d : List UInt8} (ha : a ∈ S) (hb : b ∈ S) (hc : c ∈ S)
    (hd : d ∈ S) :
    hash a ++ hash b = hash c ++ hash d ↔ a = c ∧ b = d := by
  constructor
  · intro h
    obtain ⟨hac, hbd⟩ :=
      List.append_inj h ((hlength a).trans (hlength c).symm)
    exact ⟨hinj ha hc hac, hinj hb hd hbd⟩
  · rintro ⟨rfl, rfl⟩
    rfl

/-- A tree of two items and one of four have the same root when the two items
    are the strings of the middle level of the other. -/
theorem root_two_four {data data' : List (List UInt8)}
    {x y a b c d : List UInt8} (hdata : pad data = [x, y])
    (hdata' : pad data' = [a, b, c, d])
    (hinj : Set.InjOn hash {s | s ∈ hashed hash data ∨ s ∈ hashed hash data'}) :
    root hash data = root hash data' ↔
      x = hash a ++ hash b ∧ y = hash c ++ hash d := by
  rw [root_two hash hdata, root_four hash hdata', Option.some_inj]
  rw [hashed_two hash hdata, hashed_four hash hdata'] at hinj
  rw [hinj.eq_iff (by simp) (by simp)]
  exact append_hash_eq_iff hlength hinj (by simp) (by simp) (by simp) (by simp)

/-- **LISTS WITH THE SAME ROOT**, for a hash without a collision among the
    strings of the two trees. -/
theorem root_eq_iff {data data' : List (List UInt8)}
    (hdefined : (root hash data).isSome = true)
    (hdefined' : (root hash data').isSome = true)
    (hinj : Set.InjOn hash {s | s ∈ hashed hash data ∨ s ∈ hashed hash data'}) :
    root hash data = root hash data' ↔
      pad data = pad data' ∨ Nested hash data data' ∨
        Nested hash data' data := by
  -- a root exists for two or four items after the padding
  rcases pad_cases hash hdefined with ⟨a, b, h⟩ | ⟨a, b, c, d, h⟩ <;>
    rcases pad_cases hash hdefined' with ⟨a', b', h'⟩ | ⟨a', b', c', d', h'⟩
  · -- both of two items
    have hroots : root hash data = root hash data' ↔ a = a' ∧ b = b' := by
      rw [root_two hash h, root_two hash h', Option.some_inj]
      rw [hashed_two hash h, hashed_two hash h'] at hinj
      rw [hinj.eq_iff (by simp) (by simp)]
      exact append_hash_eq_iff hlength hinj (by simp) (by simp) (by simp)
        (by simp)
    rw [hroots]
    simp [Nested, h, h']
  · rw [root_two_four hlength h h' hinj]
    simp [Nested, h, h']
  · have hinj' : Set.InjOn hash
        {s | s ∈ hashed hash data' ∨ s ∈ hashed hash data} := by
      simpa only [or_comm] using hinj
    rw [eq_comm, root_two_four hlength h' h hinj']
    simp [Nested, h, h']
  · -- both of four items
    have hroots : root hash data = root hash data' ↔
        (a = a' ∧ b = b') ∧ c = c' ∧ d = d' := by
      rw [root_four hash h, root_four hash h', Option.some_inj]
      rw [hashed_four hash h, hashed_four hash h'] at hinj
      rw [hinj.eq_iff (by simp) (by simp),
        append_hash_eq_iff hlength hinj (by simp) (by simp) (by simp) (by simp),
        append_hash_eq_iff hlength hinj (by simp) (by simp) (by simp) (by simp),
        append_hash_eq_iff hlength hinj (by simp) (by simp) (by simp) (by simp)]
    rw [hroots]
    simp [Nested, h, h', and_assoc]

end Roots

end Tree

/-! ## Padding -/

theorem pad_of_even {data : List (List UInt8)} (h : data.length % 2 = 0) :
    pad data = data := by
  rw [pad, if_neg (not_not.mpr h)]

theorem pad_one (a : List UInt8) : pad [a] = [a, a] := by simp [pad]

theorem pad_three (a b c : List UInt8) : pad [a, b, c] = [a, b, c, c] := by
  simp [pad]

/-- A list is the beginning of what it is padded to. -/
theorem take_pad (data : List (List UInt8)) :
    (pad data).take data.length = data := by
  rw [pad]
  split
  · exact List.take_left
  · exact List.take_length

theorem eq_of_pad_eq {data data' : List (List UInt8)}
    (hlength : data.length = data'.length) (h : pad data = pad data') :
    data = data' := by
  rw [← take_pad data, ← take_pad data', h, hlength]

/-- Two lists are padded to the same list when they are equal, or one is the
    other with its last item once more. -/
theorem pad_eq_iff {data data' : List (List UInt8)} :
    pad data = pad data' ↔
      data = data' ∨ data = pad data' ∨ data' = pad data := by
  have hlength := length_pad data
  have hlength' := length_pad data'
  constructor
  · intro h
    by_cases heven : data.length % 2 = 0
    · exact Or.inr (Or.inl ((pad_of_even heven).symm.trans h))
    · by_cases heven' : data'.length % 2 = 0
      · exact Or.inr (Or.inr ((pad_of_even heven').symm.trans h.symm))
      · rw [h] at hlength
        exact Or.inl (eq_of_pad_eq (by omega) h)
  · rintro (rfl | h | h)
    · rfl
    · rw [h]
      exact pad_of_even (by omega)
    · rw [h]
      exact (pad_of_even (by omega)).symm

/-! ## The reference -/

section Reference

variable (hash : List UInt8 → List UInt8)

/-- The level above: neighbours are hashed together from left to right, and a
    last node without a neighbour with itself. -/
def pairUp : List (List UInt8) → List (List UInt8)
  | left :: right :: level => hash (left ++ right) :: pairUp level
  | [last] => [hash (last ++ last)]
  | [] => []

/-- A level of the textbook tree rounds up. -/
theorem length_pairUp (level : List (List UInt8)) :
    (pairUp hash level).length = (level.length + 1) / 2 := by
  induction level using pairUp.induct with
  | case1 left right level ih =>
      rw [pairUp, List.length_cons, ih, List.length_cons, List.length_cons]
      omega
  | case2 last => simp [pairUp]
  | case3 => simp [pairUp]

/-- Level by level, until one node remains. -/
def reduce : List (List UInt8) → List UInt8
  | [] => []
  | [node] => node
  | left :: right :: level => reduce (pairUp hash (left :: right :: level))
termination_by level => level.length
decreasing_by
  rw [length_pairUp, List.length_cons, List.length_cons]
  omega

/-- What the root of a tree is to be: a single item is paired with itself. -/
def reference : List (List UInt8) → List UInt8
  | [item] => hash (hash item ++ hash item)
  | items => reduce hash (items.map hash)

/-- The data of every inner node is the hash of the data of its children. -/
def MerkleNode.Hashed : MerkleNode → Prop
  | .leaf _ => True
  | .inner left right data =>
      data = hash (left.data ++ right.data) ∧ left.Hashed ∧ right.Hashed

variable {hash}

/-- One round of the construction. -/
theorem hashed_newLevel {nodes level : List MerkleNode}
    (hnodes : ∀ node ∈ nodes, node.Hashed hash)
    (h : newLevel hash nodes = some level) :
    ∀ node ∈ level, node.Hashed hash := by
  induction nodes using newLevel.induct generalizing level with
  | case1 =>
      cases h
      intro node hnode
      cases hnode
  | case2 => cases h
  | case3 left right nodes ih =>
      obtain ⟨rest, hrest, rfl⟩ := Option.map_eq_some_iff.mp h
      intro node hnode
      rcases List.mem_cons.mp hnode with rfl | hnode
      · exact ⟨rfl, hnodes left (by simp), hnodes right (by simp)⟩
      · refine ih (fun n hn => hnodes n ?_) hrest node hnode
        exact List.mem_cons_of_mem _ (List.mem_cons_of_mem _ hn)

/-- All rounds. -/
theorem hashed_levels {i : ℕ} {nodes top : List MerkleNode}
    (hnodes : ∀ node ∈ nodes, node.Hashed hash)
    (h : levels hash i nodes = some top) : ∀ node ∈ top, node.Hashed hash := by
  induction i generalizing nodes with
  | zero =>
      cases h
      exact hnodes
  | succ i ih =>
      obtain ⟨level, hlevel, htop⟩ := Option.bind_eq_some_iff.mp h
      exact ih (hashed_newLevel hnodes hlevel) htop

/-- Every inner node of a tree that was built is the hash of its children. -/
theorem hashed_newMerkleTree {data : List (List UInt8)} {node : MerkleNode}
    (h : newMerkleTree hash data = some node) : node.Hashed hash := by
  obtain ⟨top, htop, hhead⟩ := Option.bind_eq_some_iff.mp h
  refine hashed_levels ?_ htop node (List.mem_of_mem_head? hhead)
  intro leaf hleaf
  obtain ⟨item, -, rfl⟩ := List.mem_map.mp hleaf
  trivial

/-- Where there is a root, it is that of the reference. -/
theorem root_eq_reference {data : List (List UInt8)} (hpos : 1 ≤ data.length)
    (hle : data.length ≤ 4) : root hash data = some (reference hash data) := by
  rcases data with _ | ⟨a, _ | ⟨b, _ | ⟨c, _ | ⟨d, _ | ⟨e, rest⟩⟩⟩⟩⟩
  · cases hpos
  · rw [root_two hash (pad_one a), reference]
  · rw [root_two hash (pad_of_even (by simp))]
    simp [reference, reduce, pairUp]
  · rw [root_four hash (pad_three a b c)]
    simp [reference, reduce, pairUp]
  · rw [root_four hash (pad_of_even (by simp))]
    simp [reference, reduce, pairUp]
  · simp only [List.length_cons] at hle
    omega

/-- **WHEN THE TREE IS RIGHT**: for up to four items.  Then the construction
    does not run out of its slice, the root is that of the reference and the
    data of every inner node is the hash of the data of its children; with more
    items it panics. -/
theorem merkle_tree_correct_iff (hash : List UInt8 → List UInt8)
    {data : List (List UInt8)} (hne : data ≠ []) :
    ((∃ node, newMerkleTree hash data = some node ∧
        node.data = reference hash data ∧ node.Hashed hash) ↔
      data.length ≤ 4) ∧
    (newMerkleTree hash data = none ↔ 4 < data.length) := by
  have hpos : 1 ≤ data.length := List.length_pos_iff.mpr hne
  have hdefined : (newMerkleTree hash data).isSome = true ↔ data.length ≤ 4 := by
    rw [← Option.isSome_map (f := MerkleNode.data)]
    exact (root_isSome_iff hash).trans (and_iff_right hpos)
  refine ⟨⟨?_, ?_⟩, ?_⟩
  · rintro ⟨node, hnode, -⟩
    exact hdefined.mp (by rw [hnode, Option.isSome_some])
  · intro hle
    obtain ⟨node, hnode⟩ := Option.isSome_iff_exists.mp (hdefined.mpr hle)
    refine ⟨node, hnode, ?_, hashed_newMerkleTree hnode⟩
    have hroot : root hash data = some (reference hash data) :=
      root_eq_reference hpos hle
    rw [root, hnode] at hroot
    exact Option.some.inj hroot
  · rw [← not_le, ← hdefined, Bool.not_eq_true, Option.isSome_eq_false_iff,
      Option.isNone_iff_eq_none]

/-- Three items, of which the last one is repeated. -/
theorem merkle_tree_correct_three :
    ∃ node, newMerkleTree sum256 [[1], [2], [3]] = some node ∧
      node.data = reference sum256 [[1], [2], [3]] ∧ node.Hashed sum256 :=
  (merkle_tree_correct_iff sum256 (by simp)).1.mpr (by simp)

/-- **THE CONSTRUCTION PANICS** for five items, at the second level, and for
    eight, above the root. -/
theorem merkle_tree_panics :
    newMerkleTree sum256 [[1], [2], [3], [4], [5]] = none ∧
      newMerkleTree sum256 [[1], [2], [3], [4], [5], [6], [7], [8]] = none := by
  constructor
  · simp [newMerkleTree, pad, levels, newLevel]
  · simp [newMerkleTree, pad, levels, newLevel]

end Reference

/-! ## Blocks -/

/-- `Block`. -/
structure Block (Header E : Type*) where
  number : UInt64
  hash : Hash
  transactions : List (Transaction E)
  signature : List UInt8
  leader : List UInt8
  header : Header

section Blocks

variable {Header E : Type*} (gob : Gob E)

/-- The items of the tree of a block: its transactions, serialized. -/
def items (transactions : List (Transaction E)) : List (List UInt8) :=
  transactions.map (Transaction.serialize gob)

/-- `HashTransactions`. -/
def hashTransactions (transactions : List (Transaction E)) :
    Option (List UInt8) :=
  root sum256 (items gob transactions)

/-- `NewBlock`. -/
def newBlock (header : Header) (number : UInt64)
    (transactions : List (Transaction E)) (sig : List UInt8) :
    Option (Block Header E) :=
  (hashTransactions gob transactions).map fun data =>
    { number := number
      hash := bytesToHash data
      transactions := transactions
      signature := sig
      leader := []
      header := header }

/-- The items of two lists of transactions are those of their events. -/
theorem items_eq_iff {txs txs' : List (Transaction E)} :
    items gob txs = items gob txs' ↔
      txs.map Transaction.originData = txs'.map Transaction.originData := by
  induction txs generalizing txs' with
  | nil => cases txs' <;> simp [items]
  | cons tx txs ih =>
      cases txs' with
      | nil => simp [items]
      | cons tx' txs' =>
          have hrest := @ih txs'
          simp only [items] at hrest ⊢
          simp only [List.map_cons, List.cons.injEq, serialize_eq_iff, hrest]

/-- Blocks with the same hash have the same root. -/
theorem hashTransactions_eq {header header' : Header} {number number' : UInt64}
    {txs txs' : List (Transaction E)} {sig sig' : List UInt8}
    {block block' : Block Header E}
    (hblock : newBlock gob header number txs sig = some block)
    (hblock' : newBlock gob header' number' txs' sig' = some block')
    (h : block.hash = block'.hash) :
    hashTransactions gob txs = hashTransactions gob txs' := by
  obtain ⟨r, hr, rfl⟩ := Option.map_eq_some_iff.mp hblock
  obtain ⟨r', hr', rfl⟩ := Option.map_eq_some_iff.mp hblock'
  obtain ⟨s, rfl⟩ := root_eq_some hr
  obtain ⟨s', rfl⟩ := root_eq_some hr'
  rw [hr, hr', bytesToHash_sum256_eq_iff.mp h]

/-- Lists of transactions with the same root give blocks with the same hash. -/
theorem newBlock_hash_eq {txs txs' : List (Transaction E)}
    (hdefined : (root sum256 (items gob txs)).isSome = true)
    (hroot : root sum256 (items gob txs) = root sum256 (items gob txs'))
    (hne : txs ≠ txs') (header : Header) (number : UInt64)
    (sig : List UInt8) :
    ∃ block block' : Block Header E,
      newBlock gob header number txs sig = some block ∧
      newBlock gob header number txs' sig = some block' ∧
      block.transactions ≠ block'.transactions ∧
      block.hash = block'.hash := by
  obtain ⟨r, hr⟩ := Option.isSome_iff_exists.mp hdefined
  have hmade : ∀ txs, root sum256 (items gob txs) = some r →
      newBlock gob header number txs sig =
        some ⟨number, bytesToHash r, txs, sig, [], header⟩ := by
    intro txs htxs
    rw [newBlock, hashTransactions, htxs, Option.map_some]
  exact ⟨_, _, hmade txs hr, hmade txs' (hroot ▸ hr), hne, rfl⟩

/-- Transactions whose unexported fields are zero are known by their events. -/
theorem eq_of_originData_eq {txs txs' : List (Transaction E)}
    (hzero : ∀ tx ∈ txs ++ txs', tx.nonce = 0 ∧ tx.chainId = 0)
    (h : txs.map Transaction.originData = txs'.map Transaction.originData) :
    txs = txs' := by
  have hback : ∀ l : List (Transaction E), (∀ tx ∈ l, tx ∈ txs ++ txs') →
      (l.map Transaction.originData).map (newTransaction · 0 0) = l := by
    intro l hl
    rw [List.map_map]
    refine (List.map_congr_left ?_).trans (List.map_id l)
    intro tx htx
    obtain ⟨hnonce, hchain⟩ := hzero tx (hl tx htx)
    obtain ⟨chainId, ev, nonce⟩ := tx
    subst hnonce hchain
    rfl
  rw [← hback txs fun tx => List.mem_append_left txs', h,
    hback txs' fun tx => List.mem_append_right txs]

/-- Lists of the same length are not nested. -/
theorem Nested.length_ne {hash : List UInt8 → List UInt8}
    {data data' : List (List UInt8)} (h : Nested hash data data') :
    data.length ≠ data'.length := by
  obtain ⟨a, b, c, d, hdata, hdata'⟩ := h
  have hlength := length_pad data
  have hlength' := length_pad data'
  rw [hdata] at hlength
  rw [hdata'] at hlength'
  simp only [List.length_cons, List.length_nil] at hlength hlength'
  omega

/-- Data of one length with one root is one. -/
theorem eq_of_root_eq {data data' : List (List UInt8)}
    (hdefined : (root sum256 data).isSome = true)
    (hdefined' : (root sum256 data').isSome = true)
    (hinj : Set.InjOn sum256
      {s | s ∈ hashed sum256 data ∨ s ∈ hashed sum256 data'})
    (hlength : data.length = data'.length)
    (h : root sum256 data = root sum256 data') : data = data' := by
  rcases (root_eq_iff length_sum256 hdefined hdefined' hinj).mp h with
    hpad | hnested | hnested
  · exact eq_of_pad_eq hlength hpad
  · exact absurd hlength hnested.length_ne
  · exact absurd hlength.symm hnested.length_ne

/-- **WHAT A BLOCK HASH BINDS**, when SHA-256 has no collision among the strings
    of the two trees: two lists have the same root exactly when they are equal,
    one is the other with its last item once more, or the items of one are the
    strings of the middle level of the other; so lists of the same length with
    the same root are equal, and two blocks with the same hash and the same
    number of transactions have the same events, and the same transactions if
    these have no nonce and no chain id. -/
theorem block_hash_binds :
    (∀ data data' : List (List UInt8), (root sum256 data).isSome = true →
      (root sum256 data').isSome = true →
      Set.InjOn sum256
        {s | s ∈ hashed sum256 data ∨ s ∈ hashed sum256 data'} →
      (root sum256 data = root sum256 data' ↔
        data = data' ∨ data = pad data' ∨ data' = pad data ∨
          Nested sum256 data data' ∨ Nested sum256 data' data) ∧
      (data.length = data'.length → root sum256 data = root sum256 data' →
        data = data')) ∧
    ∀ (header header' : Header) (number number' : UInt64)
      (txs txs' : List (Transaction E)) (sig sig' : List UInt8)
      (block block' : Block Header E),
      newBlock gob header number txs sig = some block →
      newBlock gob header' number' txs' sig' = some block' →
      Set.InjOn sum256 {s | s ∈ hashed sum256 (items gob txs) ∨
        s ∈ hashed sum256 (items gob txs')} →
      txs.length = txs'.length → block.hash = block'.hash →
      txs.map Transaction.originData = txs'.map Transaction.originData ∧
        ((∀ tx ∈ txs ++ txs', tx.nonce = 0 ∧ tx.chainId = 0) → txs = txs') := by
  constructor
  -- padding and nesting are the only ways to share a root
  · intro data data' hdefined hdefined' hinj
    refine ⟨?_, eq_of_root_eq hdefined hdefined' hinj⟩
    rw [root_eq_iff length_sum256 hdefined hdefined' hinj, pad_eq_iff]
    simp only [or_assoc]
  · intro header header' number number' txs txs' sig sig' block block' hblock
      hblock' hinj hlength hhash
    have hroot : root sum256 (items gob txs) = root sum256 (items gob txs') :=
      hashTransactions_eq gob hblock hblock' hhash
    have hdefined : (root sum256 (items gob txs)).isSome = true := by
      obtain ⟨r, hr, -⟩ := Option.map_eq_some_iff.mp hblock
      rw [hashTransactions] at hr
      rw [hr, Option.isSome_some]
    have hdefined' : (root sum256 (items gob txs')).isSome = true := by
      rw [← hroot]
      exact hdefined
    -- with as many items on both sides neither is possible
    have hitems : items gob txs = items gob txs' :=
      eq_of_root_eq hdefined hdefined' hinj (by simpa [items]) hroot
    have hevents := (items_eq_iff gob).mp hitems
    exact ⟨hevents, fun hzero => eq_of_originData_eq hzero hevents⟩

end Blocks

/-! ## Two lists of items, and lists that are not bound -/

/-- Three items, the last of which is hashed twice. -/
def sampleItems (b : UInt8) : List (List UInt8) := [[7], [8], [b]]

/-- The strings of the trees of two such lists. -/
def sampleStrings (hash : List UInt8 → List UInt8) : List (List UInt8) :=
  let left := hash [7] ++ hash [8]
  let right (b : UInt8) := hash [b] ++ hash [b]
  [[7], [8], [9], [10], left, right 9, right 10,
    hash left ++ hash (right 9), hash left ++ hash (right 10)]

/-- The strings hashed in the sample have different sums. -/
theorem nodup_sampleStrings : ((sampleStrings sum256).map sum256).Nodup := by
  decide +kernel

/-- What is hashed for the sample's items is among them. -/
theorem mem_sampleStrings {hash : List UInt8 → List UInt8} {b : UInt8}
    (hb : b = 9 ∨ b = 10) {s : List UInt8}
    (hs : s ∈ hashed hash (sampleItems b)) : s ∈ sampleStrings hash := by
  rw [sampleItems, hashed_four hash (pad_three _ _ _)] at hs
  simp only [List.mem_cons, List.not_mem_nil, or_false] at hs
  rcases hb with rfl | rfl
  · rcases hs with rfl | rfl | rfl | rfl | rfl | rfl | rfl <;>
      simp [sampleStrings]
  · rcases hs with rfl | rfl | rfl | rfl | rfl | rfl | rfl <;>
      simp [sampleStrings]

/-- So the sum is injective on what is hashed there. -/
theorem injOn_sample : Set.InjOn sum256 {s | s ∈ hashed sum256 (sampleItems 9) ∨
    s ∈ hashed sum256 (sampleItems 10)} := by
  have hmem : ∀ s, s ∈ hashed sum256 (sampleItems 9) ∨
      s ∈ hashed sum256 (sampleItems 10) → s ∈ sampleStrings sum256 := by
    rintro s (hs | hs)
    · exact mem_sampleStrings (Or.inl rfl) hs
    · exact mem_sampleStrings (Or.inr rfl) hs
  intro s hs t ht h
  exact List.inj_on_of_nodup_map nodup_sampleStrings (hmem s hs) (hmem t ht) h

/-- Transactions whose serialized forms are these items. -/
def sampleTransactions (b : UInt8) : List (Transaction UInt8) :=
  [newTransaction 7 0 0, newTransaction 8 0 0, newTransaction b 0 0]

/-- Two lists of three items that differ in the last one have different roots, and
    the blocks of such transactions different hashes. -/
theorem block_hash_binds_sample :
    root sum256 (sampleItems 9) ≠ root sum256 (sampleItems 10) ∧
    ∃ block block' : Block Unit UInt8,
      newBlock byteGob () 1 (sampleTransactions 9) [1] = some block ∧
      newBlock byteGob () 2 (sampleTransactions 10) [2] = some block' ∧
      block.hash ≠ block'.hash := by
  have hdefined : ∀ b, (root sum256 (sampleItems b)).isSome = true := fun b =>
    (root_isSome_iff sum256).mpr (by simp [sampleItems])
  constructor
  · intro hroot
    have hbinds := (@block_hash_binds Unit UInt8 byteGob).1 _ _ (hdefined 9)
      (hdefined 10) injOn_sample
    exact absurd (hbinds.2 rfl hroot) (by decide)
  · obtain ⟨r, hr⟩ := Option.isSome_iff_exists.mp (hdefined 9)
    obtain ⟨r', hr'⟩ := Option.isSome_iff_exists.mp (hdefined 10)
    have hblock : newBlock byteGob () 1 (sampleTransactions 9) [1] = some _ :=
      congrArg (Option.map _) hr
    have hblock' : newBlock byteGob () 2 (sampleTransactions 10) [2] = some _ :=
      congrArg (Option.map _) hr'
    refine ⟨_, _, hblock, hblock', fun hhash => ?_⟩
    have hsame := ((@block_hash_binds Unit UInt8 byteGob).2 _ _ _ _ _ _ _ _ _ _
      hblock hblock' injOn_sample rfl hhash).1
    exact absurd hsame (by decide)

/-- **COLLISIONS** that no hash function prevents: a list and the list with its
    last item once more, and a list of four items and the two strings of its
    middle level; and two blocks with the same hash and other transactions. -/
theorem merkle_collisions :
    (∀ (hash : List UInt8 → List UInt8) (a b c d : List UInt8),
      (root hash [a]).isSome = true ∧ root hash [a] = root hash [a, a] ∧
      (root hash [a, b, c]).isSome = true ∧
      root hash [a, b, c] = root hash [a, b, c, c] ∧
      (root hash [a, b, c, d]).isSome = true ∧
      root hash [hash a ++ hash b, hash c ++ hash d] =
        root hash [a, b, c, d]) ∧
    (∃ block block' : Block Unit UInt8,
      newBlock byteGob () 1 [newTransaction 7 0 0] [] = some block ∧
      newBlock byteGob () 1 [newTransaction 7 0 0, newTransaction 7 0 0] [] =
        some block' ∧
      block.transactions ≠ block'.transactions ∧ block.hash = block'.hash) ∧
    ∃ block block' : Block Unit UInt8,
      newBlock byteGob () 1 [newTransaction 7 1 1] [] = some block ∧
      newBlock byteGob () 1 [newTransaction 7 2 1] [] = some block' ∧
      block.transactions ≠ block'.transactions ∧ block.hash = block'.hash := by
  refine ⟨?_, ?_, ?_⟩
  · intro hash a b c d
    refine ⟨(root_isSome_iff hash).mpr (by simp), ?_,
      (root_isSome_iff hash).mpr (by simp), ?_,
      (root_isSome_iff hash).mpr (by simp), ?_⟩
    · rw [root_two hash (pad_one a), root_two hash (pad_of_even (by simp))]
    · rw [root_four hash (pad_three a b c),
        root_four hash (pad_of_even (by simp))]
    · rw [root_two hash (pad_of_even (by simp)),
        root_four hash (pad_of_even (by simp))]
  -- one transaction against the same one twice
  · refine newBlock_hash_eq byteGob ?_ ?_ (by decide) () 1 []
    · exact (root_isSome_iff sum256).mpr (by simp [items])
    · rw [items, items, List.map_singleton, List.map_cons, List.map_singleton,
        root_two sum256 (pad_one _), root_two sum256 (pad_of_even (by simp))]
  -- the nonce is not part of what is hashed
  · refine newBlock_hash_eq byteGob ?_ ?_ (by decide) () 1 []
    · exact (root_isSome_iff sum256).mpr (by simp [items])
    · exact congrArg (root sum256) ((items_eq_iff byteGob).mpr rfl)

end RelayerMerkle
