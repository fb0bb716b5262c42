/-
**The event assembler: what `parse_public_transaction_event` computes.**

`Photon.parsePublicTransactionEvent` runs three loops over a mutable `StateUpdate`.  This module
says in one equation what they compute (`Photon.parsePublicTransactionEvent_eq`): a traversal of
the zipped input accounts, each enriched with the tree its index names; a check that there are as
many output accounts as path updates; the output accounts zipped by position with the path
updates and their hashes; and the nodes of every path with their levels.  Everything else in the
module is read off that equation.

Main definitions:

* `Photon.enrichInput`, `Photon.enrichOutput`, `Photon.expandPath` — the bodies of the three
  loops;
* `Photon.assemble` — what the three loops compute, as a traversal and two maps.

Main results:

* `Photon.extractPathUpdates_eq` — one path update per path of each event, in event-major order;
* `Photon.parsePublicTransactionEvent_eq` — **the assembler as one traversal and two maps**;
* `Photon.assemble_eq_pure` — when the assembler succeeds, and with what;
* `Photon.wellFormed_of_parsePublicTransactionEvent` — every assembled update has the invariants
  of the spec;
* `Photon.assemble_withSlot` — the slot is only a stamp on what the assembler returns.
-/

import Mathlib
import Photon.Parser

set_option relaxedAutoImplicit false
set_option autoImplicit false

namespace Photon

/-! ### Path updates -/

/-- `extract_path_updates` copies each path node unchanged. -/
theorem extractPathUpdates_eq (cl : Changelogs) :
    extractPathUpdates cl =
      cl.changelogs.flatMap fun | .v1 e => e.paths.map fun p => ⟨e.id, p, e.seq⟩ := by
  simp only [extractPathUpdates]
  congr 1
  funext e
  cases e
  simp

theorem length_extractPathUpdates (cl : Changelogs) :
    (extractPathUpdates cl).length =
      (cl.changelogs.map fun | .v1 e => e.paths.length).sum := by
  rw [extractPathUpdates_eq, List.length_flatMap]
  congr 1
  apply List.map_congr_left
  rintro ⟨e⟩ -
  simp

theorem mem_extractPathUpdates {cl : Changelogs} {p : PathUpdate} :
    p ∈ extractPathUpdates cl ↔
      ∃ e, .v1 e ∈ cl.changelogs ∧ ∃ path ∈ e.paths, p = ⟨e.id, path, e.seq⟩ := by
  rw [extractPathUpdates_eq, List.mem_flatMap]
  constructor
  · rintro ⟨⟨e⟩, he, hp⟩
    obtain ⟨path, hpath, rfl⟩ := List.mem_map.1 hp
    exact ⟨e, he, path, hpath, rfl⟩
  · rintro ⟨e, he, path, hpath, rfl⟩
    exact ⟨.v1 e, he, List.mem_map.2 ⟨path, hpath, rfl⟩⟩

/-! ### The three loops -/

/-- An input account and its hash, enriched with the tree that its index names in
`pubkey_array`: the body of the input loop. -/
def enrichInput (pubkeyArray : List Pubkey) (slot : UInt64)
    (x : CompressedAccountWithMerkleContext × Bytes 32) : Outcome IngesterError EnrichedAccount :=
  (fun tree => { account := x.1.compressedAccount, tree, seq := none, slot, hash := x.2 }) <$>
    index pubkeyArray x.1.merkleTreePubkeyIndex

/-- An output account with its path update and its hash, enriched: the body of the output
loop. -/
def enrichOutput (slot : UInt64) (x : (CompressedAccount × PathUpdate) × Bytes 32) :
    EnrichedAccount :=
  { account := x.1.1, tree := ⟨x.1.2.tree⟩, seq := some x.1.2.seq, slot, hash := x.2 }

/-- The nodes of a path update, with their level from the leaf and the length of the path. -/
def expandPath (slot : UInt64) (p : PathUpdate) : List EnrichedPathNode :=
  p.path.enum.map fun (i, node) =>
    { node, slot, tree := p.tree, seq := p.seq, level := i, treeDepth := p.path.length }

theorem foldl_push_inAccounts (us : List EnrichedAccount) :
    ∀ s : StateUpdate, us.foldl (fun r e => { r with inAccounts := r.inAccounts ++ [e] }) s =
      { s with inAccounts := s.inAccounts ++ us } := by
  induction us with
  | nil => simp
  | cons u us ih => intro s; simp [ih]

theorem foldl_push_outAccounts {β : Type} (f : β → EnrichedAccount) (l : List β) :
    ∀ s : StateUpdate, l.foldl (fun r x => { r with outAccounts := r.outAccounts ++ [f x] }) s =
      { s with outAccounts := s.outAccounts ++ l.map f } := by
  induction l with
  | nil => simp
  | cons u us ih => intro s; simp [ih]

/-- What `parse_public_transaction_event` computes: the zipped input accounts enriched one by one,
then, when there are as many output accounts as path updates, the output accounts zipped by
position with the path updates and the output hashes, and the nodes of every path. -/
def assemble (tx : Signature) (slot : UInt64) (ev : PublicTransactionEvent) (cl : Changelogs) :
    Outcome IngesterError StateUpdate := do
  let inAccounts ← (ev.inputCompressedAccounts.zip ev.inputCompressedAccountHashes).mapM
    (enrichInput ev.pubkeyArray slot)
  let pathUpdates := extractPathUpdates cl
  if ev.outputCompressedAccounts.length = pathUpdates.length then
    pure ⟨inAccounts,
      ((ev.outputCompressedAccounts.zip pathUpdates).zip ev.outputCompressedAccountHashes).map
        (enrichOutput slot),
      pathUpdates.flatMap (expandPath slot)⟩
  else
    throw (.malformedEvent
      s!"Number of path updates did not match the number of output accounts (txn: {tx})")

/-- **The assembler as one traversal and two maps.** -/
theorem parsePublicTransactionEvent_eq (tx : Signature) (slot : UInt64)
    (ev : PublicTransactionEvent) (cl : Changelogs) :
    parsePublicTransactionEvent tx slot ev cl = assemble tx slot ev cl := by
  simp only [parsePublicTransactionEvent]
  rw [Outcome.forIn_push some (enrichInput ev.pubkeyArray slot)
    (fun r e => { r with inAccounts := r.inAccounts ++ [e] }) _ fun x _ r => ?_]
  · simp only [pure_bind, Outcome.forIn_pure_yield, List.filterMap_some, foldl_push_inAccounts,
      foldl_push_outAccounts]
    simp only [assemble, bind_map_left]
    congr 1
    funext ins
    by_cases h : ev.outputCompressedAccounts.length = (extractPathUpdates cl).length
    · simp [h, enrichOutput]
      rfl
    · simp [h]
  · obtain ⟨a, h⟩ := x
    simp [enrichInput]

/-! ### When the assembler succeeds -/

theorem enrichInput_eq_pure {pubkeyArray : List Pubkey} {slot : UInt64}
    {x : CompressedAccountWithMerkleContext × Bytes 32} {u : EnrichedAccount} :
    enrichInput pubkeyArray slot x = pure u ↔
      ∃ h : x.1.merkleTreePubkeyIndex < pubkeyArray.length,
        u = { account := x.1.compressedAccount, tree := pubkeyArray[x.1.merkleTreePubkeyIndex],
              seq := none, slot, hash := x.2 } := by
  by_cases h : x.1.merkleTreePubkeyIndex < pubkeyArray.length
  · simp [enrichInput, index_of_lt h, h, eq_comm]
  · simp [enrichInput, index_of_le (Nat.le_of_not_lt h), h]

/-- The zipped input accounts are enriched exactly when each of them names a tree of
`pubkey_array`, and then each is enriched in place. -/
theorem mapM_enrichInput_eq_pure {pubkeyArray : List Pubkey} {slot : UInt64}
    {xs : List (CompressedAccountWithMerkleContext × Bytes 32)} {us : List EnrichedAccount} :
    xs.mapM (enrichInput pubkeyArray slot) = pure us ↔
      us.length = xs.length ∧ ∀ k (hk : k < xs.length) (hk' : k < us.length),
        ∃ h : xs[k].1.merkleTreePubkeyIndex < pubkeyArray.length,
          us[k] = { account := xs[k].1.compressedAccount,
                    tree := pubkeyArray[xs[k].1.merkleTreePubkeyIndex], seq := none, slot,
                    hash := xs[k].2 } := by
  rw [Outcome.mapM_eq_pure, List.forall₂_iff_get]
  simp only [List.get_eq_getElem, enrichInput_eq_pure, @eq_comm _ xs.length]

theorem exists_enrichInput_eq_pure {pubkeyArray : List Pubkey} {slot : UInt64}
    {x : CompressedAccountWithMerkleContext × Bytes 32} :
    (∃ u, enrichInput pubkeyArray slot x = pure u) ↔
      x.1.merkleTreePubkeyIndex < pubkeyArray.length :=
  ⟨fun ⟨_, hu⟩ => (enrichInput_eq_pure.1 hu).1, fun h => ⟨_, enrichInput_eq_pure.2 ⟨h, rfl⟩⟩⟩

/-- The input loop runs to its end exactly when every zipped input account names a tree of
`pubkey_array`. -/
theorem exists_mapM_enrichInput_eq_pure {pubkeyArray : List Pubkey} {slot : UInt64}
    {xs : List (CompressedAccountWithMerkleContext × Bytes 32)} :
    (∃ us, xs.mapM (enrichInput pubkeyArray slot) = pure us) ↔
      ∀ x ∈ xs, x.1.merkleTreePubkeyIndex < pubkeyArray.length := by
  simp only [Outcome.exists_mapM_eq_pure_iff, exists_enrichInput_eq_pure]

theorem assemble_eq_pure {tx : Signature} {slot : UInt64} {ev : PublicTransactionEvent}
    {cl : Changelogs} {u : StateUpdate} :
    assemble tx slot ev cl = pure u ↔
      ∃ inAccounts, (ev.inputCompressedAccounts.zip ev.inputCompressedAccountHashes).mapM
          (enrichInput ev.pubkeyArray slot) = pure inAccounts ∧
        ev.outputCompressedAccounts.length = (extractPathUpdates cl).length ∧
        u = ⟨inAccounts,
          ((ev.outputCompressedAccounts.zip (extractPathUpdates cl)).zip
            ev.outputCompressedAccountHashes).map (enrichOutput slot),
          (extractPathUpdates cl).flatMap (expandPath slot)⟩ := by
  simp only [assemble, Outcome.bind_eq_pure]
  refine exists_congr fun ins => ?_
  by_cases h : ev.outputCompressedAccounts.length = (extractPathUpdates cl).length <;>
    simp [h, eq_comm]

/-- Every zipped input account names a tree of `pubkey_array` when every input account does. -/
theorem exists_mapM_enrichInput {ev : PublicTransactionEvent} (slot : UInt64)
    (hidx : ∀ a ∈ ev.inputCompressedAccounts, a.merkleTreePubkeyIndex < ev.pubkeyArray.length) :
    ∃ inAccounts, (ev.inputCompressedAccounts.zip ev.inputCompressedAccountHashes).mapM
      (enrichInput ev.pubkeyArray slot) = pure inAccounts :=
  exists_mapM_enrichInput_eq_pure.2 fun x hx => hidx x.1 (List.of_mem_zip hx).1

/-- **Positional binding.**  With every input index in range, the path updates are one per
path of each event in event-major order; the assembler fails with `MalformedEvent` exactly when
the output accounts and the path updates differ in number; and on success output account `j`
takes its tree and sequence number from path update `j`, input account `k` its tree from
`pubkey_array`. -/
theorem parsePublicTransactionEvent_positional (tx : Signature) (slot : UInt64)
    (ev : PublicTransactionEvent) (cl : Changelogs)
    (hidx : ∀ a ∈ ev.inputCompressedAccounts, a.merkleTreePubkeyIndex < ev.pubkeyArray.length) :
    extractPathUpdates cl =
        cl.changelogs.flatMap (fun | .v1 e => e.paths.map fun p => ⟨e.id, p, e.seq⟩) ∧
      (extractPathUpdates cl).length = (cl.changelogs.map fun | .v1 e => e.paths.length).sum ∧
      ((∃ msg, parsePublicTransactionEvent tx slot ev cl = .err (.malformedEvent msg)) ↔
        ev.outputCompressedAccounts.length ≠ (extractPathUpdates cl).length) ∧
      ∀ u, parsePublicTransactionEvent tx slot ev cl = .ok u →
        (∀ j (hj : j < u.outAccounts.length),
          ∃ (h₁ : j < ev.outputCompressedAccounts.length) (h₂ : j < (extractPathUpdates cl).length)
            (h₃ : j < ev.outputCompressedAccountHashes.length),
            u.outAccounts[j] =
              { account := ev.outputCompressedAccounts[j], tree := ⟨(extractPathUpdates cl)[j].tree⟩,
                seq := some (extractPathUpdates cl)[j].seq, slot,
                hash := ev.outputCompressedAccountHashes[j] }) ∧
        ∀ k (hk : k < u.inAccounts.length),
          ∃ (h₁ : k < ev.inputCompressedAccounts.length)
            (h₂ : k < ev.inputCompressedAccountHashes.length)
            (h₃ : ev.inputCompressedAccounts[k].merkleTreePubkeyIndex < ev.pubkeyArray.length),
            u.inAccounts[k] =
              { account := ev.inputCompressedAccounts[k].compressedAccount,
                tree := ev.pubkeyArray[ev.inputCompressedAccounts[k].merkleTreePubkeyIndex],
                seq := none, slot, hash := ev.inputCompressedAccountHashes[k] } := by
  obtain ⟨ins, hins⟩ := exists_mapM_enrichInput slot hidx
  refine ⟨extractPathUpdates_eq cl, length_extractPathUpdates cl, ?_, fun u hu => ?_⟩
  · simp only [parsePublicTransactionEvent_eq, assemble, hins, pure_bind]
    split_ifs with h <;> simp [h]
  · rw [parsePublicTransactionEvent_eq] at hu
    obtain ⟨ins, hins, -, rfl⟩ := assemble_eq_pure.1 hu
    obtain ⟨hlen, hat⟩ := mapM_enrichInput_eq_pure.1 hins
    refine ⟨fun j hj => ?_, fun k hk => ?_⟩
    · simp only [List.length_map, List.length_zip] at hj
      refine ⟨by omega, by omega, by omega, ?_⟩
      simp [enrichOutput]
    · dsimp only at hk ⊢
      simp only [List.length_zip] at hlen
      obtain ⟨hb, he⟩ := hat k (by simp; omega) hk
      refine ⟨by omega, by omega, by simpa using hb, ?_⟩
      simpa using he

/-- Two output accounts against one path: the event is rejected as malformed. -/
theorem parsePublicTransactionEvent_positional_mismatch :
    let z : Bytes 32 := ⟨List.replicate 32 0, rfl⟩
    let ev : PublicTransactionEvent := ⟨[z], [z, z], [⟨⟨[]⟩, 0⟩], [⟨[]⟩, ⟨[1]⟩], [⟨z⟩]⟩
    let cl : Changelogs := ⟨[.v1 ⟨z, [[⟨z, 0⟩]], 7, 0⟩]⟩
    (∀ a ∈ ev.inputCompressedAccounts, a.merkleTreePubkeyIndex < ev.pubkeyArray.length) ∧
      ∃ msg, parsePublicTransactionEvent ⟨⟨List.replicate 64 0, rfl⟩⟩ 0 ev cl =
        .err (.malformedEvent msg) := by
  intro z ev cl
  exact ⟨by decide,
    (parsePublicTransactionEvent_positional _ 0 ev cl (by decide)).2.2.1.2 (by decide)⟩

@[simp] theorem length_expandPath (slot : UInt64) (p : PathUpdate) :
    (expandPath slot p).length = p.path.length := by
  simp [expandPath]

theorem expandPath_eq_ofFn (slot : UInt64) (p : PathUpdate) :
    expandPath slot p = List.ofFn fun i : Fin p.path.length =>
      { node := p.path.get i, slot, tree := p.tree, seq := p.seq, level := i,
        treeDepth := p.path.length } := by
  apply List.ext_getElem <;> simp [expandPath]

theorem length_flatMap_expandPath (slot : UInt64) (cl : Changelogs) :
    ((extractPathUpdates cl).flatMap (expandPath slot)).length =
      (cl.changelogs.map fun | .v1 e => (e.paths.map List.length).sum).sum := by
  rw [extractPathUpdates_eq, List.flatMap_assoc, List.length_flatMap]
  congr 1
  apply List.map_congr_left
  rintro ⟨e⟩ -
  simp [Function.comp_def, List.flatMap_map]

/-- **Level expansion.**  On success the path nodes are, path update by path update in order,
the nodes of the path with their level from the leaf, the length of the path as the depth, and
the tree and sequence number of the update; there is one per node of the change logs. -/
theorem parsePublicTransactionEvent_pathNodes (tx : Signature) (slot : UInt64)
    (ev : PublicTransactionEvent) (cl : Changelogs) (u : StateUpdate)
    (h : parsePublicTransactionEvent tx slot ev cl = .ok u) :
    u.pathNodes = (extractPathUpdates cl).flatMap (fun p =>
        List.ofFn fun i : Fin p.path.length =>
          { node := p.path.get i, slot, tree := p.tree, seq := p.seq, level := i,
            treeDepth := p.path.length }) ∧
      u.pathNodes.length = (cl.changelogs.map fun | .v1 e => (e.paths.map List.length).sum).sum := by
  rw [parsePublicTransactionEvent_eq] at h
  obtain ⟨ins, -, -, rfl⟩ := assemble_eq_pure.1 h
  exact ⟨congrArg (List.flatMap _) (funext (expandPath_eq_ofFn slot)),
    length_flatMap_expandPath slot cl⟩

/-- One path of two nodes gives two path nodes, at levels `0` and `1`. -/
theorem parsePublicTransactionEvent_pathNodes_two_levels :
    let z : Bytes 32 := ⟨List.replicate 32 0, rfl⟩
    let ev : PublicTransactionEvent := ⟨[], [z], [], [⟨[]⟩], []⟩
    let cl : Changelogs := ⟨[.v1 ⟨z, [[⟨z, 0⟩, ⟨z, 1⟩]], 7, 0⟩]⟩
    let u : StateUpdate := ⟨[], [⟨⟨[]⟩, ⟨z⟩, some 7, 0, z⟩],
      [⟨⟨z, 0⟩, 0, z, 7, 0, 2⟩, ⟨⟨z, 1⟩, 0, z, 7, 1, 2⟩]⟩
    parsePublicTransactionEvent ⟨⟨List.replicate 64 0, rfl⟩⟩ 0 ev cl = .ok u ∧
      u.pathNodes.length = 2 := by
  intro z ev cl u
  have h : parsePublicTransactionEvent ⟨⟨List.replicate 64 0, rfl⟩⟩ 0 ev cl = .ok u := by decide
  exact ⟨h, (parsePublicTransactionEvent_pathNodes _ 0 ev cl u h).2⟩

/-! ### Accounts and their hashes -/

/-- **Accounts are zipped with their hashes** (the lengths of the hash lists are never checked).
The assembler succeeds exactly when every input account that has a hash names a tree of
`pubkey_array` and there are as many output accounts as path updates, whatever the lengths of
the two hash lists; and then it keeps as many accounts of each kind as the shorter of the
account list and its hash list. -/
theorem parsePublicTransactionEvent_length_accounts (tx : Signature) (slot : UInt64)
    (ev : PublicTransactionEvent) (cl : Changelogs) :
    ((∃ u, parsePublicTransactionEvent tx slot ev cl = .ok u) ↔
      (∀ x ∈ ev.inputCompressedAccounts.zip ev.inputCompressedAccountHashes,
          x.1.merkleTreePubkeyIndex < ev.pubkeyArray.length) ∧
        ev.outputCompressedAccounts.length = (extractPathUpdates cl).length) ∧
    ∀ u, parsePublicTransactionEvent tx slot ev cl = .ok u →
      u.inAccounts.length =
          min ev.inputCompressedAccounts.length ev.inputCompressedAccountHashes.length ∧
        u.outAccounts.length =
          min ev.outputCompressedAccounts.length ev.outputCompressedAccountHashes.length ∧
        ev.outputCompressedAccounts.length = (extractPathUpdates cl).length := by
  simp only [parsePublicTransactionEvent_eq, Outcome.ok_eq_pure, assemble_eq_pure]
  refine ⟨⟨fun ⟨_, ins, hins, hlen, _⟩ => ⟨exists_mapM_enrichInput_eq_pure.1 ⟨ins, hins⟩, hlen⟩,
    fun ⟨hidx, hlen⟩ => ?_⟩, fun u ⟨ins, hins, hout, hu⟩ => ?_⟩
  · obtain ⟨ins, hins⟩ := exists_mapM_enrichInput_eq_pure.2 hidx
    exact ⟨_, ins, hins, hlen, rfl⟩
  · obtain ⟨hlen, -⟩ := mapM_enrichInput_eq_pure.1 hins
    subst hu
    simp only [List.length_zip] at hlen
    simp only [List.length_map, List.length_zip, hlen, hout, Nat.min_self, and_true]

/-- An input account with no hash is accepted whatever its tree index, and dropped. -/
theorem parsePublicTransactionEvent_length_accounts_unhashed :
    let sig : Signature := ⟨⟨List.replicate 64 0, rfl⟩⟩
    let ev : PublicTransactionEvent := ⟨[], [], [⟨⟨[]⟩, 5⟩], [], []⟩
    (∃ u, parsePublicTransactionEvent sig 0 ev ⟨[]⟩ = .ok u) ∧
      ∀ u, parsePublicTransactionEvent sig 0 ev ⟨[]⟩ = .ok u → u.inAccounts.length = 0 := by
  intro sig ev
  have h := parsePublicTransactionEvent_length_accounts sig 0 ev ⟨[]⟩
  exact ⟨h.1.2 ⟨by simp [ev], rfl⟩, fun u hu => (h.2 u hu).1⟩

/-- An input account without a hash is dropped, and the event is not rejected. -/
theorem parsePublicTransactionEvent_drops_unhashed_input :
    parsePublicTransactionEvent ⟨⟨List.replicate 64 0, rfl⟩⟩ 0
        ⟨[], [], [⟨⟨[]⟩, 0⟩], [], [⟨⟨List.replicate 32 0, rfl⟩⟩]⟩ ⟨[]⟩ = .ok StateUpdate.new := by
  decide

/-! ### Keys of the persisted rows -/

theorem mem_expandPath {slot : UInt64} {p : PathUpdate} {n : EnrichedPathNode}
    (h : n ∈ expandPath slot p) : n.tree = p.tree ∧ n.seq = p.seq := by
  obtain ⟨⟨i, node⟩, -, rfl⟩ := List.mem_map.1 h
  exact ⟨rfl, rfl⟩

/-- With distinct tree ids, path updates of one tree carry one sequence number. -/
theorem seq_eq_of_tree_eq {cl : Changelogs} (hids : (cl.changelogs.map fun | .v1 e => e.id).Nodup)
    {p q : PathUpdate} (hp : p ∈ extractPathUpdates cl) (hq : q ∈ extractPathUpdates cl)
    (ht : p.tree = q.tree) : p.seq = q.seq := by
  obtain ⟨e, he, _, _, rfl⟩ := mem_extractPathUpdates.1 hp
  obtain ⟨e', he', _, _, rfl⟩ := mem_extractPathUpdates.1 hq
  cases List.inj_on_of_nodup_map hids he he' ht
  rfl

/-- **The sequence number is the event's.**  In every change log, every path of a version-1
event gives a path update with the event's tree id and sequence number, so the paths of one
event share both.  Hence, in every successful parse whose events have distinct tree ids, two
output accounts share a (tree, seq) pair exactly when they share a tree, and two path nodes
share a (tree, seq, level) key exactly when they share a tree and a level. -/
theorem parsePublicTransactionEvent_keys (tx : Signature) (slot : UInt64)
    (ev : PublicTransactionEvent) (cl : Changelogs) :
    (∀ e, .v1 e ∈ cl.changelogs → ∀ p ∈ e.paths,
        (⟨e.id, p, e.seq⟩ : PathUpdate) ∈ extractPathUpdates cl) ∧
      ∀ u, parsePublicTransactionEvent tx slot ev cl = .ok u →
        (cl.changelogs.map fun | .v1 e => e.id).Nodup →
        (∀ a ∈ u.outAccounts, ∀ b ∈ u.outAccounts,
          (a.tree = b.tree ∧ a.seq = b.seq ↔ a.tree = b.tree)) ∧
        ∀ n ∈ u.pathNodes, ∀ n' ∈ u.pathNodes,
          (n.tree = n'.tree ∧ n.seq = n'.seq ∧ n.level = n'.level ↔
            n.tree = n'.tree ∧ n.level = n'.level) := by
  refine ⟨fun e he p hp => mem_extractPathUpdates.2 ⟨e, he, p, hp, rfl⟩, fun u h hids => ?_⟩
  rw [parsePublicTransactionEvent_eq] at h
  obtain ⟨ins, -, -, rfl⟩ := assemble_eq_pure.1 h
  constructor
  · intro a ha b hb
    obtain ⟨⟨⟨x, p⟩, hx⟩, hpa, rfl⟩ := List.mem_map.1 ha
    obtain ⟨⟨⟨y, q⟩, hy⟩, hqb, rfl⟩ := List.mem_map.1 hb
    have hp := (List.of_mem_zip (List.of_mem_zip hpa).1).2
    have hq := (List.of_mem_zip (List.of_mem_zip hqb).1).2
    simp only [enrichOutput, Pubkey.mk.injEq, Option.some.injEq, and_iff_left_iff_imp]
    exact seq_eq_of_tree_eq hids hp hq
  · intro n hn n' hn'
    obtain ⟨p, hp, hnp⟩ := List.mem_flatMap.1 hn
    obtain ⟨q, hq, hnq⟩ := List.mem_flatMap.1 hn'
    obtain ⟨hnt, hns⟩ := mem_expandPath hnp
    obtain ⟨hnt', hns'⟩ := mem_expandPath hnq
    rw [hnt, hns, hnt', hns']
    exact ⟨fun h => ⟨h.1, h.2.2⟩, fun h => ⟨h.1, seq_eq_of_tree_eq hids hp hq h.1, h.2⟩⟩

/-- With one event of two paths, both output accounts have one tree and one sequence number. -/
theorem parsePublicTransactionEvent_keys_one_event :
    let z : Bytes 32 := ⟨List.replicate 32 0, rfl⟩
    let ev : PublicTransactionEvent := ⟨[], [z, z], [], [⟨[]⟩, ⟨[1]⟩], []⟩
    let cl : Changelogs := ⟨[.v1 ⟨z, [[⟨z, 0⟩], [⟨z, 1⟩]], 7, 0⟩]⟩
    let u : StateUpdate := ⟨[], [⟨⟨[]⟩, ⟨z⟩, some 7, 0, z⟩, ⟨⟨[1]⟩, ⟨z⟩, some 7, 0, z⟩],
      [⟨⟨z, 0⟩, 0, z, 7, 0, 1⟩, ⟨⟨z, 1⟩, 0, z, 7, 0, 1⟩]⟩
    parsePublicTransactionEvent ⟨⟨List.replicate 64 0, rfl⟩⟩ 0 ev cl = .ok u ∧
      (cl.changelogs.map fun | .v1 e => e.id).Nodup ∧
      ∀ a ∈ u.outAccounts, ∀ b ∈ u.outAccounts,
        (a.tree = b.tree ∧ a.seq = b.seq ↔ a.tree = b.tree) := by
  intro z ev cl u
  have h : parsePublicTransactionEvent ⟨⟨List.replicate 64 0, rfl⟩⟩ 0 ev cl = .ok u := by decide
  have hids : (cl.changelogs.map fun | .v1 e => e.id).Nodup := by decide
  exact ⟨h, hids, ((parsePublicTransactionEvent_keys _ 0 ev cl).2 u h hids).1⟩

/-- Two paths of one event give two output accounts with one (tree, seq) pair and two path
nodes with one (tree, seq, level) key. -/
theorem parsePublicTransactionEvent_paths_share_seq :
    let z : Bytes 32 := ⟨List.replicate 32 0, rfl⟩
    parsePublicTransactionEvent ⟨⟨List.replicate 64 0, rfl⟩⟩ 0
        ⟨[], [z, z], [], [⟨[]⟩, ⟨[1]⟩], []⟩ ⟨[.v1 ⟨z, [[⟨z, 0⟩], [⟨z, 1⟩]], 7, 0⟩]⟩ =
      .ok ⟨[], [⟨⟨[]⟩, ⟨z⟩, some 7, 0, z⟩, ⟨⟨[1]⟩, ⟨z⟩, some 7, 0, z⟩],
        [⟨⟨z, 0⟩, 0, z, 7, 0, 1⟩, ⟨⟨z, 1⟩, 0, z, 7, 0, 1⟩]⟩ := by
  decide

/-! ### The invariants of an assembled update -/

theorem level_lt_of_mem_expandPath {slot : UInt64} {p : PathUpdate} {n : EnrichedPathNode}
    (h : n ∈ expandPath slot p) : n.level < n.treeDepth := by
  obtain ⟨⟨i, node⟩, hi, rfl⟩ := List.mem_map.1 h
  exact List.fst_lt_of_mem_enum hi

/-- **Every assembled update has the invariants** (spec I3, I4). -/
theorem wellFormed_of_parsePublicTransactionEvent {tx : Signature} {slot : UInt64}
    {ev : PublicTransactionEvent} {cl : Changelogs} {u : StateUpdate}
    (h : parsePublicTransactionEvent tx slot ev cl = .ok u) : u.WellFormed := by
  rw [parsePublicTransactionEvent_eq, Outcome.ok_eq_pure, assemble_eq_pure] at h
  obtain ⟨ins, hins, -, rfl⟩ := h
  refine ⟨fun a ha => ?_, fun a ha => ?_, fun n hn => ?_⟩
  · obtain ⟨x, -, hx⟩ := Outcome.mem_of_mapM_eq_pure hins a ha
    obtain ⟨-, rfl⟩ := enrichInput_eq_pure.1 hx
    rfl
  · obtain ⟨x, -, rfl⟩ := List.mem_map.1 ha
    rfl
  · obtain ⟨p, -, hn⟩ := List.mem_flatMap.1 hn
    exact level_lt_of_mem_expandPath hn

/-! ### The slot -/

theorem enrichInput_slot (pubkeyArray : List Pubkey) (s s' : UInt64) :
    enrichInput pubkeyArray s' =
      fun x => (fun a => { a with slot := s' }) <$> enrichInput pubkeyArray s x := by
  funext x
  simp only [enrichInput, Functor.map_map]

theorem expandPath_slot (s s' : UInt64) :
    expandPath s' = fun p => (expandPath s p).map fun n => { n with slot := s' } := by
  funext p
  simp only [expandPath, List.map_map]
  rfl

/-- The slot is only a stamp on what the assembler returns. -/
theorem assemble_withSlot (tx : Signature) (s s' : UInt64) (ev : PublicTransactionEvent)
    (cl : Changelogs) :
    assemble tx s' ev cl = StateUpdate.withSlot s' <$> assemble tx s ev cl := by
  simp only [assemble, enrichInput_slot _ s s', Outcome.mapM_map_result, bind_map_left, map_bind]
  congr 1
  funext ins
  split_ifs
  · simp [StateUpdate.withSlot, enrichOutput, expandPath_slot s s', List.map_flatMap]
  · rfl

/-! ### Panics -/

/-- **An input index out of range panics**: when the first zipped input account whose index
is not in `pubkey_array` is `x`, the assembler panics with the index error of `x`. -/
theorem parsePublicTransactionEvent_eq_panic {tx : Signature} {slot : UInt64}
    {ev : PublicTransactionEvent} {cl : Changelogs}
    {pre post : List (CompressedAccountWithMerkleContext × Bytes 32)}
    {x : CompressedAccountWithMerkleContext × Bytes 32}
    (hxs : ev.inputCompressedAccounts.zip ev.inputCompressedAccountHashes = pre ++ x :: post)
    (hpre : ∀ y ∈ pre, y.1.merkleTreePubkeyIndex < ev.pubkeyArray.length)
    (hx : ev.pubkeyArray.length ≤ x.1.merkleTreePubkeyIndex) :
    parsePublicTransactionEvent tx slot ev cl =
      .panic s!"index out of bounds: the len is {ev.pubkeyArray.length} but the index is {x.1.merkleTreePubkeyIndex}" := by
  obtain ⟨us, hus⟩ := Outcome.exists_mapM_eq_pure fun y hy =>
    ⟨_, enrichInput_eq_pure.2 ⟨hpre y hy, rfl⟩⟩
  rw [parsePublicTransactionEvent_eq, assemble, hxs, Outcome.mapM_append_cons_bind hus]
  simp [enrichInput, index_of_le hx]

end Photon
