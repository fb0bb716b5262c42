/-
**The parser over encoded payloads.**

`Photon.parseTransaction` takes the decoders of its two payloads as a parameter, and
`Photon.Borsh` builds the Borsh decoders of the spec's wire format.  This module puts the two
together: with those decoders, what a trigger and a transaction parse to is read off the bytes
of the payload instructions.  A trigger succeeds exactly when its two payloads start with
encodings the assembler accepts; the bytes after them are never read; a truncated change log
fails the trigger with the `ParserError` the parser builds.

Main results:

* `Photon.Borsh.parseTrigger_deserializers_eq_pure` — **a trigger over the wire format**;
* `Photon.Borsh.parseTransaction_encoded_trigger` — **end to end**: a transaction whose one
  trigger carries the encodings of a change log and an event parses to what the assembler makes
  of them, whatever follows the encodings;
* `Photon.Borsh.parseTrigger_truncated_changelogs` — a truncated change log fails its trigger.
-/

import Photon.Scanner

set_option relaxedAutoImplicit false
set_option autoImplicit false

namespace Photon

namespace Borsh

/-- **A trigger over the wire format**: with the Borsh decoders, a trigger succeeds exactly when
the data of its first noop instruction starts with the encoding of a change log, the data of its
second with the encoding of an event, and the assembler succeeds on the two. -/
theorem parseTrigger_deserializers_eq_pure {input : Codec CompressedAccountWithMerkleContext}
    {output : Codec CompressedAccount} {sig : Signature} {slot : UInt64}
    {t : Instruction × Instruction} {u : StateUpdate} :
    parseTrigger (deserializers input output) sig slot t = pure u ↔
      ∃ cl ev, (∃ pre rest, changelogs.encode cl = .ok pre ∧ t.1.data = pre ++ rest) ∧
        (∃ pre rest, (publicTransactionEvent input output).encode ev = .ok pre ∧
          t.2.data = pre ++ rest) ∧
        parsePublicTransactionEvent sig slot ev cl = pure u := by
  simp only [parseTrigger_eq_pure, deserializers, Codec.deserialize_eq_ok]

/-- **End to end** (the spec's first scenario, for every payload): a transaction of one group,
an account-compression instruction that lists the noop program followed by two noop
instructions that carry the encodings of a change log and of an event, parses to what the
assembler makes of the two, whatever bytes follow the encodings. -/
theorem parseTransaction_encoded_trigger {input : Codec CompressedAccountWithMerkleContext}
    {output : Codec CompressedAccount} {cl : Changelogs} {ev : PublicTransactionEvent}
    {p q : List UInt8} (hp : changelogs.encode cl = .ok p)
    (hq : (publicTransactionEvent input output).encode ev = .ok q)
    {accounts : List Pubkey} (hacc : noopProgramId ∈ accounts)
    (data r₁ r₂ : List UInt8) (accounts₁ accounts₂ : List Pubkey) (sig : Signature)
    (slot : UInt64) :
    parseTransaction (deserializers input output)
        ⟨[⟨⟨accountCompressionProgramId, accounts, data⟩,
          [⟨noopProgramId, accounts₁, p ++ r₁⟩, ⟨noopProgramId, accounts₂, q ++ r₂⟩]⟩], sig⟩
        slot =
      parsePublicTransactionEvent sig slot ev cl := by
  rw [parseTransaction_eq]
  simp [-List.mapM, triggers, triggerAt, List.range_succ, hacc, List.mapM_cons, parseTrigger,
    deserializers, Codec.deserialize_encode _ hp, Codec.deserialize_encode _ hq, Except.mapError,
    StateUpdate.mergeUpdates]

/-- A trigger that carries a change log of one event with one path of one node, with a byte
after it, and an event with one input account, one output account, their hashes and one key.
The bytes are those of the layouts of `Photon.Borsh`: counts and tags as four bytes, `u64`s as
eight, the payload of an account as a counted sequence of bytes and its tree index as one. -/
theorem parseTransaction_encoded_one_account_trigger :
    let z : Bytes 32 := ⟨List.replicate 32 0, rfl⟩
    let cl : Changelogs := ⟨[.v1 ⟨z, [[⟨z, 3⟩]], 7, 0⟩]⟩
    let ev : PublicTransactionEvent := ⟨[z], [z], [⟨⟨[5]⟩, 0⟩], [⟨[6]⟩], [⟨z⟩]⟩
    let p : List UInt8 := [1, 0, 0, 0, 0, 0, 0, 0] ++ z.toList ++ [1, 0, 0, 0, 1, 0, 0, 0] ++
      z.toList ++ [3, 0, 0, 0, 0, 0, 0, 0, 7, 0, 0, 0, 0, 0, 0, 0, 0, 0, 0, 0, 0, 0, 0, 0]
    let q : List UInt8 := [1, 0, 0, 0] ++ z.toList ++ [1, 0, 0, 0] ++ z.toList ++
      [1, 0, 0, 0, 1, 0, 0, 0, 5, 0, 1, 0, 0, 0, 1, 0, 0, 0, 6, 1, 0, 0, 0] ++ z.toList
    let sig : Signature := ⟨⟨List.replicate 64 0, rfl⟩⟩
    (changelogs.encode cl = .ok p ∧
        (publicTransactionEvent compressedAccountWithMerkleContext compressedAccount).encode ev =
          .ok q ∧
        noopProgramId ∈ [noopProgramId]) ∧
      parseTransaction (deserializers compressedAccountWithMerkleContext compressedAccount)
          ⟨[⟨⟨accountCompressionProgramId, [noopProgramId], []⟩,
            [⟨noopProgramId, [], p ++ [9]⟩, ⟨noopProgramId, [], q ++ []⟩]⟩], sig⟩ 0 =
        parsePublicTransactionEvent sig 0 ev cl :=
  ⟨⟨rfl, rfl, List.mem_singleton_self _⟩, parseTransaction_encoded_trigger (by rfl) (by rfl)
    (List.mem_singleton_self _) [] [9] [] [] [] _ 0⟩

/-- **A truncated change log fails the trigger** (spec §4.1, §7): when the data of the first
noop instruction is a proper prefix of the encoding of a change log, the trigger ends with the
`ParserError` of the change logs. -/
theorem parseTrigger_truncated_changelogs {input : Codec CompressedAccountWithMerkleContext}
    {output : Codec CompressedAccount} {sig : Signature} {slot : UInt64}
    {t : Instruction × Instruction} {cl : Changelogs} {p r : List UInt8}
    (hp : changelogs.encode cl = .ok p) (htr : p = t.1.data ++ r) (hr : r ≠ []) :
    ∃ m : String, parseTrigger (deserializers input output) sig slot t =
      .err (.parserError s!"Failed to deserialize Changelogs: {m}") := by
  obtain ⟨m, hm⟩ := changelogs.decode_eq_error_of_truncated hp htr hr
  exact ⟨m, by simp [parseTrigger, deserializers, Codec.deserialize, hm, Except.mapError]⟩

/-- A change log of one event cut after its tag fails its trigger. -/
theorem parseTrigger_changelogs_cut_after_tag :
    let z : Bytes 32 := ⟨List.replicate 32 0, rfl⟩
    let p : List UInt8 := [1, 0, 0, 0, 0, 0, 0, 0] ++ z.toList ++ [0, 0, 0, 0] ++
      [7, 0, 0, 0, 0, 0, 0, 0, 0, 0, 0, 0, 0, 0, 0, 0]
    let t : Instruction × Instruction :=
      (⟨noopProgramId, [], [1, 0, 0, 0, 0, 0, 0, 0]⟩, ⟨noopProgramId, [], []⟩)
    (changelogs.encode ⟨[.v1 ⟨z, [], 7, 0⟩]⟩ = .ok p ∧ p = t.1.data ++ p.drop 8 ∧ p.drop 8 ≠ []) ∧
      ∃ m : String, parseTrigger (deserializers compressedAccountWithMerkleContext
          compressedAccount) ⟨⟨List.replicate 64 0, rfl⟩⟩ 0 t =
        .err (.parserError s!"Failed to deserialize Changelogs: {m}") := by
  refine ⟨⟨?hp, ?htr, ?hr⟩, parseTrigger_truncated_changelogs ?hp ?htr ?hr⟩
  · rfl
  · rfl
  · exact List.cons_ne_nil _ _

end Borsh

end Photon
