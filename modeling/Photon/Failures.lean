/-
**How the parser fails (spec §4.5, §7).**

`Photon.parseTransaction_ok_iff_triggers` says when the parser succeeds and that otherwise the
first trigger that does not succeed decides.  This module says what that trigger ends with,
completely: the three errors of the parser, each with the text the source builds, and the one
panic, the out-of-bounds index into `pubkey_array`.  Each is characterised by an equivalence, so
that no other error and no other panic can happen, and each happens whenever its condition
holds.

Main definitions:

* `Photon.TriggerError` — the errors of a trigger: a payload that does not decode, or output
  accounts and path updates that differ in number;
* `Photon.TriggerPanic` — the panic of a trigger: an input account with a hash that names no tree.

Main results:

* `Photon.parsePublicTransactionEvent_eq_err`, `Photon.parsePublicTransactionEvent_eq_panic_iff`
  — the failures of the assembler;
* `Photon.parseTransaction_eq_err` — **the parser returns an error exactly when its first
  failing trigger ends with one of the errors of the spec's taxonomy**;
* `Photon.parseTransaction_eq_panic` — **the parser panics exactly when its first failing
  trigger indexes `pubkey_array` out of bounds**.
-/

import Photon.Scanner

set_option relaxedAutoImplicit false
set_option autoImplicit false

namespace Photon

/-! ### The assembler -/

section Assembler

variable {pubkeyArray : List Pubkey} {slot : UInt64}
  {x : CompressedAccountWithMerkleContext × Bytes 32}

/-- Enriching an input account never returns an error: out of range it panics. -/
theorem enrichInput_ne_err (e : IngesterError) : enrichInput pubkeyArray slot x ≠ .err e := by
  by_cases h : x.1.merkleTreePubkeyIndex < pubkeyArray.length
  · simp [enrichInput, index_of_lt h]
  · simp [enrichInput, index_of_le (Nat.le_of_not_lt h)]

theorem enrichInput_eq_panic {m : String} :
    enrichInput pubkeyArray slot x = .panic m ↔
      pubkeyArray.length ≤ x.1.merkleTreePubkeyIndex ∧
        m = s!"index out of bounds: the len is {pubkeyArray.length} but the index is {x.1.merkleTreePubkeyIndex}" := by
  by_cases h : x.1.merkleTreePubkeyIndex < pubkeyArray.length
  · simp [enrichInput, index_of_lt h, Nat.not_le.2 h]
  · simp [enrichInput, index_of_le (Nat.le_of_not_lt h), Nat.le_of_not_lt h, eq_comm]

end Assembler

/-- **The assembler's one error**: it returns an error exactly when every input account that has
a hash names a tree and the output accounts and the path updates differ in number, and the
error is the `MalformedEvent` that names the transaction. -/
theorem parsePublicTransactionEvent_eq_err {tx : Signature} {slot : UInt64}
    {ev : PublicTransactionEvent} {cl : Changelogs} {e : IngesterError} :
    parsePublicTransactionEvent tx slot ev cl = .err e ↔
      (∀ x ∈ ev.inputCompressedAccounts.zip ev.inputCompressedAccountHashes,
        x.1.merkleTreePubkeyIndex < ev.pubkeyArray.length) ∧
      ev.outputCompressedAccounts.length ≠ (extractPathUpdates cl).length ∧
      e = .malformedEvent
        s!"Number of path updates did not match the number of output accounts (txn: {tx})" := by
  rw [parsePublicTransactionEvent_eq, assemble, Outcome.bind_eq_err]
  constructor
  · rintro (h | ⟨ins, hins, h⟩)
    · obtain ⟨_, x, _, _, _, hx⟩ := Outcome.mapM_eq_err.1 h
      exact absurd hx (enrichInput_ne_err e)
    · dsimp only at h
      split_ifs at h with hlen
      exact ⟨exists_mapM_enrichInput_eq_pure.1 ⟨ins, hins⟩, hlen, (Outcome.err.inj h).symm⟩
  · rintro ⟨hidx, hlen, rfl⟩
    obtain ⟨ins, hins⟩ := exists_mapM_enrichInput_eq_pure.2 hidx
    exact .inr ⟨ins, hins, by simp [hlen]⟩

/-- **The assembler's one panic**: it panics exactly when an input account with a hash names no
tree, with the index error of the first such account. -/
theorem parsePublicTransactionEvent_eq_panic_iff {tx : Signature} {slot : UInt64}
    {ev : PublicTransactionEvent} {cl : Changelogs} {m : String} :
    parsePublicTransactionEvent tx slot ev cl = .panic m ↔
      ∃ pre x post,
        ev.inputCompressedAccounts.zip ev.inputCompressedAccountHashes = pre ++ x :: post ∧
        (∀ y ∈ pre, y.1.merkleTreePubkeyIndex < ev.pubkeyArray.length) ∧
        ev.pubkeyArray.length ≤ x.1.merkleTreePubkeyIndex ∧
        m = s!"index out of bounds: the len is {ev.pubkeyArray.length} but the index is {x.1.merkleTreePubkeyIndex}" := by
  constructor
  · rw [parsePublicTransactionEvent_eq, assemble, Outcome.bind_eq_panic]
    rintro (h | ⟨ins, -, h⟩)
    · obtain ⟨pre, x, post, hxs, hpre, hx⟩ := Outcome.mapM_eq_panic.1 h
      exact ⟨pre, x, post, hxs, fun y hy => exists_enrichInput_eq_pure.1 (hpre y hy),
        enrichInput_eq_panic.1 hx⟩
    · dsimp only at h
      split_ifs at h
  · rintro ⟨pre, x, post, hxs, hpre, hx, rfl⟩
    exact parsePublicTransactionEvent_eq_panic hxs hpre hx

/-! ### A trigger -/

/-- The errors a trigger ends with, as the parser builds them: the decoding error of a payload
in a `ParserError` that names the payload, or, when both payloads decode and every input account
with a hash names a tree, the `MalformedEvent` that names the transaction when the output
accounts and the path updates differ in number. -/
inductive TriggerError (d : Deserializers) (sig : Signature) (t : Instruction × Instruction) :
    IngesterError → Prop
  | changelogs {m : String} : d.changelogs t.1.data = .error m →
      TriggerError d sig t (.parserError s!"Failed to deserialize Changelogs: {m}")
  | publicTransactionEvent {cl : Changelogs} {m : String} : d.changelogs t.1.data = .ok cl →
      d.publicTransactionEvent t.2.data = .error m →
      TriggerError d sig t (.parserError s!"Failed to deserialize PublicTransactionEvent: {m}")
  | malformedEvent {cl : Changelogs} {ev : PublicTransactionEvent} :
      d.changelogs t.1.data = .ok cl → d.publicTransactionEvent t.2.data = .ok ev →
      (∀ x ∈ ev.inputCompressedAccounts.zip ev.inputCompressedAccountHashes,
        x.1.merkleTreePubkeyIndex < ev.pubkeyArray.length) →
      ev.outputCompressedAccounts.length ≠ (extractPathUpdates cl).length →
      TriggerError d sig t (.malformedEvent
        s!"Number of path updates did not match the number of output accounts (txn: {sig})")

/-- The panic a trigger ends with: once both payloads decode, indexing `pubkey_array` with the
tree index of the first input account with a hash that names no tree. -/
inductive TriggerPanic (d : Deserializers) (t : Instruction × Instruction) : String → Prop
  | index {cl : Changelogs} {ev : PublicTransactionEvent}
      {pre post : List (CompressedAccountWithMerkleContext × Bytes 32)}
      {x : CompressedAccountWithMerkleContext × Bytes 32} :
      d.changelogs t.1.data = .ok cl → d.publicTransactionEvent t.2.data = .ok ev →
      ev.inputCompressedAccounts.zip ev.inputCompressedAccountHashes = pre ++ x :: post →
      (∀ y ∈ pre, y.1.merkleTreePubkeyIndex < ev.pubkeyArray.length) →
      ev.pubkeyArray.length ≤ x.1.merkleTreePubkeyIndex →
      TriggerPanic d t
        s!"index out of bounds: the len is {ev.pubkeyArray.length} but the index is {x.1.merkleTreePubkeyIndex}"

section Trigger

variable {d : Deserializers} {sig : Signature} {slot : UInt64} {t : Instruction × Instruction}

theorem parseTrigger_eq_err {e : IngesterError} :
    parseTrigger d sig slot t = .err e ↔ TriggerError d sig t e := by
  constructor
  · intro h
    cases hcl : d.changelogs t.1.data with
    | error m =>
      simp only [parseTrigger, hcl, Except.mapError, Outcome.ofExcept_error, Outcome.err_bind,
        Outcome.err.injEq] at h
      exact h ▸ .changelogs hcl
    | ok cl =>
      cases hev : d.publicTransactionEvent t.2.data with
      | error m =>
        simp only [parseTrigger, hcl, hev, Except.mapError, Outcome.ofExcept_ok,
          Outcome.ofExcept_error, pure_bind, Outcome.err_bind, Outcome.err.injEq] at h
        exact h ▸ .publicTransactionEvent hcl hev
      | ok ev =>
        simp only [parseTrigger, hcl, hev, Except.mapError, Outcome.ofExcept_ok, pure_bind] at h
        obtain ⟨hidx, hlen, rfl⟩ := parsePublicTransactionEvent_eq_err.1 h
        exact .malformedEvent hcl hev hidx hlen
  · rintro (⟨hcl⟩ | ⟨hcl, hev⟩ | ⟨hcl, hev, hidx, hlen⟩)
    · simp [parseTrigger, hcl, Except.mapError]
    · simp [parseTrigger, hcl, hev, Except.mapError]
    · simp only [parseTrigger, hcl, hev, Except.mapError, Outcome.ofExcept_ok, pure_bind]
      exact parsePublicTransactionEvent_eq_err.2 ⟨hidx, hlen, rfl⟩

theorem parseTrigger_eq_panic {m : String} :
    parseTrigger d sig slot t = .panic m ↔ TriggerPanic d t m := by
  constructor
  · intro h
    cases hcl : d.changelogs t.1.data <;> cases hev : d.publicTransactionEvent t.2.data <;>
      simp [parseTrigger, hcl, hev, Except.mapError] at h
    obtain ⟨pre, x, post, hxs, hpre, hx, rfl⟩ := parsePublicTransactionEvent_eq_panic_iff.1 h
    exact .index hcl hev hxs hpre hx
  · rintro ⟨hcl, hev, hxs, hpre, hx⟩
    simp [parseTrigger, hcl, hev, Except.mapError, parsePublicTransactionEvent_eq_panic hxs hpre hx]

end Trigger

/-! ### The parser -/

section Parser

variable {d : Deserializers} {tx : TransactionInfo} {slot : UInt64}

/-- **The errors of the parser.**  `parse_transaction` returns `Err e` exactly when some trigger
ends with the error `e` of the taxonomy (a payload that does not decode, or output accounts and
path updates that differ in number) and every trigger before it succeeds. -/
theorem parseTransaction_eq_err {e : IngesterError} :
    parseTransaction d tx slot = .err e ↔
      ∃ pre t post, triggers tx = pre ++ t :: post ∧
        (∀ t' ∈ pre, ∃ u, parseTrigger d tx.signature slot t' = pure u) ∧
        TriggerError d tx.signature t e := by
  rw [parseTransaction_eq, Outcome.map_eq_err, Outcome.mapM_eq_err]
  simp only [parseTrigger_eq_err]

/-- **The panics of the parser.**  `parse_transaction` panics exactly when some trigger indexes
`pubkey_array` out of bounds and every trigger before it succeeds. -/
theorem parseTransaction_eq_panic {m : String} :
    parseTransaction d tx slot = .panic m ↔
      ∃ pre t post, triggers tx = pre ++ t :: post ∧
        (∀ t' ∈ pre, ∃ u, parseTrigger d tx.signature slot t' = pure u) ∧ TriggerPanic d t m := by
  rw [parseTransaction_eq, Outcome.map_eq_panic, Outcome.mapM_eq_panic]
  simp only [parseTrigger_eq_panic]

end Parser

/-! ### The index panic -/

/-- **A tree index out of range panics the parser.**  When every trigger before `t` succeeds,
both payloads of `t` decode, and the first zipped input account of the event whose index is not
in `pubkey_array` is `x`, then `parse_transaction` panics with the index error of `x`: it
neither returns `MalformedEvent` nor any other `Err`. -/
theorem parseTransaction_panics_of_tree_index_out_of_range {d : Deserializers}
    {tx : TransactionInfo} {slot : UInt64} {pre post : List (Instruction × Instruction)}
    {t : Instruction × Instruction} {cl : Changelogs} {ev : PublicTransactionEvent}
    {ins rest : List (CompressedAccountWithMerkleContext × Bytes 32)}
    {x : CompressedAccountWithMerkleContext × Bytes 32}
    (hT : triggers tx = pre ++ t :: post)
    (hpre : ∀ t' ∈ pre, ∃ u, parseTrigger d tx.signature slot t' = .ok u)
    (hcl : d.changelogs t.1.data = .ok cl) (hev : d.publicTransactionEvent t.2.data = .ok ev)
    (hxs : ev.inputCompressedAccounts.zip ev.inputCompressedAccountHashes = ins ++ x :: rest)
    (hins : ∀ y ∈ ins, y.1.merkleTreePubkeyIndex < ev.pubkeyArray.length)
    (hx : ev.pubkeyArray.length ≤ x.1.merkleTreePubkeyIndex) :
    parseTransaction d tx slot =
      .panic s!"index out of bounds: the len is {ev.pubkeyArray.length} but the index is {x.1.merkleTreePubkeyIndex}" :=
  parseTransaction_eq_panic.2 ⟨pre, t, post, hT, hpre, .index hcl hev hxs hins hx⟩

/-- Over the Borsh decoders: a transaction whose one trigger carries the empty change log and an
event with one hashed input account of tree index `0` and an empty `pubkey_array` panics the
parser. -/
theorem parseTransaction_panics_at_unknown_tree :
    let z : List UInt8 := List.replicate 32 0
    let noop₁ : Instruction := ⟨noopProgramId, [], [0, 0, 0, 0]⟩
    let noop₂ : Instruction := ⟨noopProgramId, [], [1, 0, 0, 0] ++ z ++
      [0, 0, 0, 0, 1, 0, 0, 0, 0, 0, 0, 0, 0, 0, 0, 0, 0, 0, 0, 0, 0]⟩
    let tx : TransactionInfo :=
      ⟨[⟨⟨accountCompressionProgramId, [noopProgramId], []⟩, [noop₁, noop₂]⟩],
        ⟨⟨List.replicate 64 0, rfl⟩⟩⟩
    parseTransaction
        (Borsh.deserializers Borsh.compressedAccountWithMerkleContext Borsh.compressedAccount) tx 0 =
      .panic "index out of bounds: the len is 0 but the index is 0" := by
  intro z noop₁ noop₂ tx
  rw [@parseTransaction_panics_of_tree_index_out_of_range _ tx 0 [] [] (noop₁, noop₂) ⟨[]⟩
    ⟨[⟨z, rfl⟩], [], [⟨⟨[]⟩, 0⟩], [], []⟩ [] [] _ (by decide) (by simp) rfl rfl rfl (by simp)
    (by decide)]
  decide

end Photon
