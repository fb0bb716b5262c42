/-
**The data of the transaction parser.**

`src/ingester/parser/mod.rs` reads a decoded transaction and writes a `StateUpdate`.  The types it
reads and writes are declared in modules that are not part of the sources (`indexer_events`,
`state_update`, `typedefs::block_info`, `error`), so they are modelled here from the fields the
parser touches and from the data model of the spec (§3, §6).  A fixed-size byte array carries
its length as a field, so a public key or a hash of the wrong size cannot be built.

Main definitions:

* `Photon.Bytes`, `Photon.Pubkey`, `Photon.Signature` — `[u8; n]`, a public key, a signature;
* `Photon.Instruction`, `Photon.InstructionGroup`, `Photon.TransactionInfo` — the input;
* `Photon.Changelogs`, `Photon.PublicTransactionEvent` — the two decoded payloads of a trigger;
* `Photon.StateUpdate`, `Photon.StateUpdate.merge`, `Photon.StateUpdate.mergeUpdates` — the
  output and the way updates are combined;
* `Photon.accountCompressionProgramId`, `Photon.noopProgramId` — the two program ids;
* `Photon.Deserializers` — the Borsh decoders of the two payloads, a parameter of the parser;
* `Photon.StateUpdate.WellFormed` — the invariants of a parsed update (spec I3, I4);
* `Photon.StateUpdate.withSlot` — an update with every record stamped with one slot.

Main results:

* `Photon.StateUpdate.merge_assoc`, `Photon.StateUpdate.new_merge`,
  `Photon.StateUpdate.merge_new` — merging is associative with the empty update as unit;
* `Photon.StateUpdate.mergeUpdates_eq` — a merged list of updates is the concatenation of their
  fields, in order;
* `Photon.StateUpdate.wellFormed_mergeUpdates` — a merged list of updates has the invariants
  exactly when each update has them;
* `Photon.StateUpdate.withSlot_mergeUpdates` — stamping a slot commutes with merging;
* `Photon.accountCompressionProgramId_ne_noopProgramId` — the two program ids differ.
-/

import Mathlib.Data.List.Basic

set_option relaxedAutoImplicit false
set_option autoImplicit false

namespace Photon

/-! ### Bytes, keys and signatures -/

/-- A fixed-size byte array `[u8; n]`. -/
@[ext] structure Bytes (n : ℕ) where
  toList : List UInt8
  length_eq : toList.length = n
deriving DecidableEq

/-- The digits of base 58 as `bs58` writes them. -/
def base58Alphabet : List Char :=
  "123456789ABCDEFGHJKLMNPQRSTUVWXYZabcdefghijkmnopqrstuvwxyz".toList

/-- The base-58 digits of `n`, most significant first; `fuel` bounds their number. -/
def base58Digits : ℕ → ℕ → List ℕ
  | 0, _ => []
  | fuel + 1, n => if n = 0 then [] else base58Digits fuel (n / 58) ++ [n % 58]

/-- `bs58::encode(bytes).into_string()`: one `1` for each leading zero byte, then the base-58
digits of the bytes read as a big-endian number. -/
def toBase58 (bytes : List UInt8) : String :=
  let zeros := (bytes.takeWhile (· == 0)).length
  let n := bytes.foldl (fun acc b => acc * 256 + b.toNat) 0
  String.mk (List.replicate zeros '1' ++
    (base58Digits (2 * bytes.length) n).map fun d => base58Alphabet.getD d '1')

/-- A Solana public key, `Pubkey([u8; 32])`. -/
structure Pubkey where
  toBytes : Bytes 32
deriving DecidableEq

/-- A transaction signature, `Signature([u8; 64])`; it is displayed in base 58. -/
structure Signature where
  toBytes : Bytes 64
deriving DecidableEq

instance : ToString Signature := ⟨fun s => toBase58 s.toBytes.toList⟩

/-- The account-compression program, `5QPEJ5zDsVou9FQS3KCauKswM3VwBEBu4dpL9xTqkWwN`. -/
def accountCompressionProgramId : Pubkey :=
  ⟨⟨[65, 108, 61, 176, 52, 117, 234, 133, 198, 175, 67, 171, 12, 47, 143, 190, 40, 85, 133, 139,
    248, 63, 224, 103, 49, 223, 64, 138, 92, 25, 160, 29], rfl⟩⟩

example : toBase58 accountCompressionProgramId.toBytes.toList =
    "5QPEJ5zDsVou9FQS3KCauKswM3VwBEBu4dpL9xTqkWwN" := by decide

/-- The noop program, `noopb9bkMVfRPU8AsbpTUg8AQkHtKwMYZiFUjNRtMmV`. -/
def noopProgramId : Pubkey :=
  ⟨⟨[11, 188, 15, 192, 187, 71, 202, 47, 116, 196, 17, 46, 148, 171, 19, 207, 163, 198, 52, 229,
    220, 23, 234, 203, 3, 205, 26, 35, 205, 126, 120, 124], rfl⟩⟩

example : toBase58 noopProgramId.toBytes.toList =
    "noopb9bkMVfRPU8AsbpTUg8AQkHtKwMYZiFUjNRtMmV" := by decide

theorem accountCompressionProgramId_ne_noopProgramId :
    accountCompressionProgramId ≠ noopProgramId := by decide

/-! ### The transaction -/

/-- Modelled from the spec: an instruction of `typedefs::block_info` (not in the sources), its
program, the accounts it lists and its opaque data. -/
structure Instruction where
  programId : Pubkey
  accounts : List Pubkey
  data : List UInt8
deriving DecidableEq

/-- Modelled from the spec: an outer instruction with the inner instructions it invoked, in
order. -/
structure InstructionGroup where
  outerInstruction : Instruction
  innerInstructions : List Instruction
deriving DecidableEq

/-- Modelled from the spec: `TransactionInfo` of `typedefs::block_info`, the ordered instruction
groups of a transaction and its signature. -/
structure TransactionInfo where
  instructionGroups : List InstructionGroup
  signature : Signature
deriving DecidableEq

/-! ### The decoded payloads -/

/-- Modelled from the spec: a node of a Merkle path of `indexer_events`, its hash and its
position in the tree. -/
structure PathNode where
  node : Bytes 32
  index : UInt64
deriving DecidableEq

/-- Modelled from the spec: version 1 of a change-log event, the paths one tree changed along,
with the tree's id and sequence number. -/
structure ChangelogEventV1 where
  id : Bytes 32
  paths : List (List PathNode)
  seq : UInt64
  index : UInt64
deriving DecidableEq

/-- Modelled from the spec: a change-log event; version 1 is the only variant the parser's
`match` knows. -/
inductive ChangelogEvent where
  | v1 (event : ChangelogEventV1)
deriving DecidableEq

/-- Modelled from the spec: the payload of the first noop instruction of a trigger. -/
structure Changelogs where
  changelogs : List ChangelogEvent
deriving DecidableEq

/-- Modelled from the spec: a compressed account, which the spec leaves opaque and the parser
only copies from the event into the update. -/
structure CompressedAccount where
  payload : List UInt8
deriving DecidableEq

/-- Modelled from the spec: an input account with the index of its tree in `pubkey_array`; the
rest of its Merkle context is not read by the parser. -/
structure CompressedAccountWithMerkleContext where
  compressedAccount : CompressedAccount
  merkleTreePubkeyIndex : ℕ
deriving DecidableEq

/-- Modelled from the spec: the payload of the second noop instruction of a trigger; its tail
fields are not read by the parser. -/
structure PublicTransactionEvent where
  inputCompressedAccountHashes : List (Bytes 32)
  outputCompressedAccountHashes : List (Bytes 32)
  inputCompressedAccounts : List CompressedAccountWithMerkleContext
  outputCompressedAccounts : List CompressedAccount
  pubkeyArray : List Pubkey
deriving DecidableEq

/-- Modelled from the spec: the `BorshDeserialize` implementations of the two payloads, derived
in `indexer_events` (not in the sources).  Each reads a value from the front of a byte slice or
fails with the text of an `io::Error`; the parser takes them as a parameter. -/
structure Deserializers where
  changelogs : List UInt8 → Except String Changelogs
  publicTransactionEvent : List UInt8 → Except String PublicTransactionEvent

/-! ### The state update -/

/-- Modelled from the spec: an account of a state update, with the tree it lives in, the
sequence number of its path update (outputs only), the slot and its hash. -/
structure EnrichedAccount where
  account : CompressedAccount
  tree : Pubkey
  seq : Option UInt64
  slot : UInt64
  hash : Bytes 32
deriving DecidableEq

/-- Modelled from the spec: a node of a changed path, with its level counted from the leaf and
the length of its path. -/
structure EnrichedPathNode where
  node : PathNode
  slot : UInt64
  tree : Bytes 32
  seq : UInt64
  level : ℕ
  treeDepth : ℕ
deriving DecidableEq

/-- Modelled from the spec: one path of a change-log event, with its tree and sequence number. -/
structure PathUpdate where
  tree : Bytes 32
  path : List PathNode
  seq : UInt64
deriving DecidableEq

/-- Modelled from the spec: the output of the parser; the views derived from it downstream are
not modelled. -/
structure StateUpdate where
  inAccounts : List EnrichedAccount
  outAccounts : List EnrichedAccount
  pathNodes : List EnrichedPathNode
deriving DecidableEq

/-- Modelled from the spec: the errors of `error::IngesterError` that the parser raises. -/
inductive IngesterError where
  | parserError (msg : String)
  | malformedEvent (msg : String)
deriving DecidableEq

namespace StateUpdate

/-- `StateUpdate::new()`: the empty update. -/
def new : StateUpdate := ⟨[], [], []⟩

/-- Modelled from the spec (§4.4): `merge(a, b)` concatenates the three lists, `a` first. -/
def merge (a b : StateUpdate) : StateUpdate :=
  ⟨a.inAccounts ++ b.inAccounts, a.outAccounts ++ b.outAccounts, a.pathNodes ++ b.pathNodes⟩

/-- Modelled from the spec (§4.4): `StateUpdate::merge_updates`, the left fold of `merge` from
the empty update. -/
def mergeUpdates (updates : List StateUpdate) : StateUpdate :=
  updates.foldl merge new

@[simp] theorem new_inAccounts : new.inAccounts = [] := rfl
@[simp] theorem new_outAccounts : new.outAccounts = [] := rfl
@[simp] theorem new_pathNodes : new.pathNodes = [] := rfl

@[simp] theorem merge_inAccounts (a b : StateUpdate) :
    (a.merge b).inAccounts = a.inAccounts ++ b.inAccounts := rfl

@[simp] theorem merge_outAccounts (a b : StateUpdate) :
    (a.merge b).outAccounts = a.outAccounts ++ b.outAccounts := rfl

@[simp] theorem merge_pathNodes (a b : StateUpdate) :
    (a.merge b).pathNodes = a.pathNodes ++ b.pathNodes := rfl

theorem merge_assoc (a b c : StateUpdate) : (a.merge b).merge c = a.merge (b.merge c) := by
  simp [merge]

@[simp] theorem new_merge (a : StateUpdate) : new.merge a = a := rfl

@[simp] theorem merge_new (a : StateUpdate) : a.merge new = a := by
  simp [merge]

theorem foldl_merge (updates : List StateUpdate) :
    ∀ a : StateUpdate, updates.foldl merge a = a.merge (mergeUpdates updates) := by
  induction updates with
  | nil => simp [mergeUpdates]
  | cons u us ih =>
    intro a
    simp only [List.foldl_cons, mergeUpdates, new_merge]
    rw [ih, ih u, merge_assoc]

/-- **A merged list of updates is the concatenation of their fields**, in the order of the
list. -/
theorem mergeUpdates_eq (updates : List StateUpdate) :
    mergeUpdates updates =
      ⟨updates.flatMap inAccounts, updates.flatMap outAccounts, updates.flatMap pathNodes⟩ := by
  induction updates with
  | nil => rfl
  | cons u us ih =>
    rw [mergeUpdates, List.foldl_cons, new_merge, foldl_merge, ih]
    simp [merge]

theorem mergeUpdates_append (us vs : List StateUpdate) :
    mergeUpdates (us ++ vs) = (mergeUpdates us).merge (mergeUpdates vs) := by
  rw [mergeUpdates, List.foldl_append, ← mergeUpdates, foldl_merge]

theorem mergeUpdates_cons (u : StateUpdate) (us : List StateUpdate) :
    mergeUpdates (u :: us) = u.merge (mergeUpdates us) := by
  rw [mergeUpdates, List.foldl_cons, new_merge, foldl_merge]

/-- The update with every account and every path node stamped with the slot `s`. -/
def withSlot (s : UInt64) (u : StateUpdate) : StateUpdate :=
  ⟨u.inAccounts.map fun a => { a with slot := s }, u.outAccounts.map fun a => { a with slot := s },
    u.pathNodes.map fun n => { n with slot := s }⟩

theorem withSlot_merge (s : UInt64) (a b : StateUpdate) :
    (a.merge b).withSlot s = (a.withSlot s).merge (b.withSlot s) := by
  simp [withSlot, merge]

theorem withSlot_mergeUpdates (s : UInt64) (us : List StateUpdate) :
    (mergeUpdates us).withSlot s = mergeUpdates (us.map (withSlot s)) := by
  induction us with
  | nil => rfl
  | cons u us ih => rw [List.map_cons, mergeUpdates_cons, mergeUpdates_cons, withSlot_merge, ih]

/-! ### The invariants of an update -/

/-- The invariants every parsed update satisfies (spec I3, I4). -/
structure WellFormed (u : StateUpdate) : Prop where
  /-- An input account carries no sequence number. -/
  inAccounts_seq : ∀ a ∈ u.inAccounts, a.seq = none
  /-- An output account carries the sequence number of its path update. -/
  outAccounts_seq : ∀ a ∈ u.outAccounts, a.seq.isSome
  /-- A path node lies below the depth of its path. -/
  pathNodes_level : ∀ n ∈ u.pathNodes, n.level < n.treeDepth

theorem wellFormed_iff (u : StateUpdate) :
    u.WellFormed ↔ (∀ a ∈ u.inAccounts, a.seq = none) ∧ (∀ a ∈ u.outAccounts, a.seq.isSome) ∧
      ∀ n ∈ u.pathNodes, n.level < n.treeDepth :=
  ⟨fun ⟨h₁, h₂, h₃⟩ => ⟨h₁, h₂, h₃⟩, fun ⟨h₁, h₂, h₃⟩ => ⟨h₁, h₂, h₃⟩⟩

instance (u : StateUpdate) : Decidable u.WellFormed := decidable_of_iff _ (wellFormed_iff u).symm

theorem wellFormed_new : new.WellFormed := by decide

/-- **Merging keeps the invariants**, and a merge has them exactly when both parts do. -/
theorem wellFormed_merge {a b : StateUpdate} :
    (a.merge b).WellFormed ↔ a.WellFormed ∧ b.WellFormed := by
  simp only [wellFormed_iff, merge_inAccounts, merge_outAccounts, merge_pathNodes,
    List.forall_mem_append]
  tauto

/-- **A merged list of updates has the invariants exactly when each update has them**: the
merger of the spec, within a transaction or across the transactions of a block, keeps them. -/
theorem wellFormed_mergeUpdates {us : List StateUpdate} :
    (mergeUpdates us).WellFormed ↔ ∀ u ∈ us, u.WellFormed := by
  induction us with
  | nil => exact iff_of_true wellFormed_new (by simp)
  | cons u us ih => rw [mergeUpdates_cons, wellFormed_merge, ih, List.forall_mem_cons]

end StateUpdate

end Photon
