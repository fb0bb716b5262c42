/-
**The instruction scanner: what `parse_transaction` computes.**

`Photon.parseTransaction` walks the ordered instructions of every group with an index and a
guard `len - index > 2`, decodes the payloads of every match and pushes the assembled update.
This module defines the trigger positions as the spec states them, position by position
(`Photon.triggerAt`, `Photon.triggers`), and proves that the two nested loops are one traversal
of the triggers in order (`Photon.parseTransaction_eq`).  What the parser returns is read off
that equation: the merge of all the updates when every trigger succeeds, and otherwise the
outcome of the first trigger that does not.

Main definitions:

* `Photon.triggerAt` — the payload instructions of a trigger at a position of a group;
* `Photon.triggers` — the payload instructions of all triggers of a transaction, in order;
* `Photon.parseTrigger` — decoding and assembling one trigger.

Main results:

* `Photon.triggerAt_eq_some`, `Photon.add_three_le_of_triggerAt`, `Photon.mem_triggers` — the
  trigger pattern, triggers do not overlap, and every trigger sits after an account-compression
  instruction that lists the noop program;
* `Photon.parseTransaction_eq` — **the scanner is a traversal of the triggers**;
* `Photon.parseTransaction_ok_iff_triggers` — the parser succeeds exactly when every trigger
  does, returns the first failure otherwise, and reads nothing of the transaction but its
  signature and the payload data of its triggers;
* `Photon.wellFormed_of_parseTransaction` — every parsed transaction has the invariants of the
  spec;
* `Photon.parseTransaction_append` — parsing is compositional over instruction groups;
* `Photon.parseTransaction_of_no_trigger` — a transaction without a trigger parses to the empty
  update, whatever its data;
* `Photon.three_mul_length_triggers_le` — at most a third of the instructions open a trigger;
* `Photon.parseTransaction_withSlot` — the slot is only a stamp on what the parser returns.
-/

import Photon.Assembler
import Photon.Borsh

set_option relaxedAutoImplicit false
set_option autoImplicit false

namespace Photon

/-! ### Triggers -/

/-- The trigger pattern at position `i` of a group's ordered instructions: `i + 2` is in range,
the instruction at `i` is an account-compression instruction that lists the noop program, and
the two after it are noop instructions.  Its value is the two payload instructions. -/
def triggerAt (insts : List Instruction) (i : ℕ) : Option (Instruction × Instruction) :=
  if h : i + 2 < insts.length then
    if insts[i].programId = accountCompressionProgramId ∧ noopProgramId ∈ insts[i].accounts ∧
        insts[i + 1].programId = noopProgramId ∧ insts[i + 2].programId = noopProgramId then
      some (insts[i + 1], insts[i + 2])
    else none
  else none

/-- The payload instructions of the triggers of a transaction: group by group, and in a group
by increasing position.  No pattern spans two groups. -/
def triggers (tx : TransactionInfo) : List (Instruction × Instruction) :=
  tx.instructionGroups.flatMap fun g =>
    let insts := g.outerInstruction :: g.innerInstructions
    (List.range insts.length).filterMap (triggerAt insts)

/-- **The trigger pattern, position by position** (spec §4.2). -/
theorem triggerAt_eq_some {insts : List Instruction} {i : ℕ} {p : Instruction × Instruction} :
    triggerAt insts i = some p ↔ ∃ h : i + 2 < insts.length,
      insts[i].programId = accountCompressionProgramId ∧ noopProgramId ∈ insts[i].accounts ∧
      insts[i + 1].programId = noopProgramId ∧ insts[i + 2].programId = noopProgramId ∧
      p = (insts[i + 1], insts[i + 2]) := by
  unfold triggerAt
  split_ifs with h₁ h₂
  · constructor
    · rintro ⟨⟩
      exact ⟨h₁, h₂.1, h₂.2.1, h₂.2.2.1, h₂.2.2.2, rfl⟩
    · rintro ⟨_, -, -, -, -, rfl⟩
      rfl
  · exact iff_of_false (by simp) fun ⟨_, h⟩ => h₂ ⟨h.1, h.2.1, h.2.2.1, h.2.2.2.1⟩
  · simp [h₁]

/-- **Triggers do not overlap** (spec §4.2): the payload instructions of a trigger are noop
instructions, so no other trigger starts at them, and two triggers of a group are at least
three positions apart. -/
theorem add_three_le_of_triggerAt {insts : List Instruction} {i j : ℕ}
    {p q : Instruction × Instruction} (hi : triggerAt insts i = some p)
    (hj : triggerAt insts j = some q) (hij : i < j) : i + 3 ≤ j := by
  obtain ⟨_, -, -, hi₁, hi₂, -⟩ := triggerAt_eq_some.1 hi
  obtain ⟨_, hj₀, -⟩ := triggerAt_eq_some.1 hj
  by_contra hlt
  obtain rfl | rfl : j = i + 1 ∨ j = i + 2 := by omega
  · exact accountCompressionProgramId_ne_noopProgramId (hj₀.symm.trans hi₁)
  · exact accountCompressionProgramId_ne_noopProgramId (hj₀.symm.trans hi₂)

/-- **Trigger discrimination** (spec P6): the payload instructions of every trigger are the two
instructions after an account-compression instruction of their group that lists the noop
program. -/
theorem mem_triggers {tx : TransactionInfo} {t : Instruction × Instruction} :
    t ∈ triggers tx ↔ ∃ g ∈ tx.instructionGroups,
      ∃ i, triggerAt (g.outerInstruction :: g.innerInstructions) i = some t := by
  simp only [triggers, List.mem_flatMap, List.mem_filterMap, List.mem_range]
  refine exists_congr fun g => and_congr_right fun _ => ⟨fun ⟨i, _, h⟩ => ⟨i, h⟩, fun ⟨i, h⟩ => ?_⟩
  obtain ⟨hi, -⟩ := triggerAt_eq_some.1 h
  exact ⟨i, by omega, h⟩

/-- Positions at least three apart, each with room for a triple before `n`, fill at most a third
of the room after `lo`. -/
theorem add_three_mul_length_le {n : ℕ} : ∀ (l : List ℕ) (lo : ℕ),
    l.Pairwise (fun i j => i + 3 ≤ j) → (∀ i ∈ l, lo ≤ i ∧ i + 3 ≤ n) → lo ≤ n →
      lo + 3 * l.length ≤ n
  | [], lo, _, _, h => by simpa using h
  | i :: l, lo, hp, hl, _ => by
    obtain ⟨hi, hp⟩ := List.pairwise_cons.1 hp
    obtain ⟨hlo, hn⟩ := hl i (List.mem_cons_self i l)
    have := add_three_mul_length_le l (i + 3) hp
      (fun j hj => ⟨hi j hj, (hl j (List.mem_cons_of_mem i hj)).2⟩) hn
    simp only [List.length_cons]
    omega

/-- **A group of `n` instructions holds at most `n / 3` triggers**, since triggers do not
overlap. -/
theorem three_mul_length_filterMap_triggerAt_le (insts : List Instruction) :
    3 * ((List.range insts.length).filterMap (triggerAt insts)).length ≤ insts.length := by
  rw [List.length_filterMap_eq_countP, List.countP_eq_length_filter]
  have hT : ∀ {i}, i ∈ (List.range insts.length).filter (fun i => (triggerAt insts i).isSome) →
      ∃ p, triggerAt insts i = some p :=
    fun hi => Option.isSome_iff_exists.1 (List.mem_filter.1 hi).2
  have := add_three_mul_length_le _ 0
    (((List.pairwise_lt_range _).filter _).imp_of_mem fun ha hb hab =>
      let ⟨_, hpa⟩ := hT ha
      let ⟨_, hpb⟩ := hT hb
      add_three_le_of_triggerAt hpa hpb hab)
    (fun i hi => ⟨Nat.zero_le i, let ⟨_, hp⟩ := hT hi; (triggerAt_eq_some.1 hp).1⟩)
    (Nat.zero_le _)
  omega

theorem triggers_append (gs₁ gs₂ : List InstructionGroup) (sig : Signature) :
    triggers ⟨gs₁ ++ gs₂, sig⟩ = triggers ⟨gs₁, sig⟩ ++ triggers ⟨gs₂, sig⟩ :=
  List.flatMap_append _ _ _

/-- One trigger: decode the changelogs and the event from the two payloads, then assemble. -/
def parseTrigger (d : Deserializers) (sig : Signature) (slot : UInt64)
    (t : Instruction × Instruction) : Outcome IngesterError StateUpdate := do
  let changelogs ← Outcome.ofExcept <| (d.changelogs t.1.data).mapError
    fun e => .parserError s!"Failed to deserialize Changelogs: {e}"
  let publicTransactionEvent ← Outcome.ofExcept <| (d.publicTransactionEvent t.2.data).mapError
    fun e => .parserError s!"Failed to deserialize PublicTransactionEvent: {e}"
  parsePublicTransactionEvent sig slot publicTransactionEvent changelogs

/-! ### The scanner as a traversal -/

theorem List.foldl_push {α : Type} (us : List α) :
    ∀ r : List α, us.foldl (fun r u => r ++ [u]) r = r ++ us := by
  induction us with
  | nil => simp
  | cons u us ih => intro r; simp [ih]

/-- The body of the inner loop selects the trigger at its index: the guard `len - index > 2` is
`index + 2 < len`, and the instruction the loop carries is the one at `index`. -/
theorem filterMap_enum_triggerAt (insts : List Instruction) :
    insts.enum.filterMap (fun x => triggerAt insts x.1) =
      (List.range insts.length).filterMap (triggerAt insts) := by
  rw [← List.enum_map_fst, List.filterMap_map]
  rfl

/-- **The scanner is a traversal of the triggers**: the two nested loops of `parse_transaction`
run `parseTrigger` on the triggers in order, stop at the first failure, and merge. -/
theorem parseTransaction_eq (d : Deserializers) (tx : TransactionInfo) (slot : UInt64) :
    parseTransaction d tx slot =
      StateUpdate.mergeUpdates <$> (triggers tx).mapM (parseTrigger d tx.signature slot) := by
  simp only [parseTransaction]
  rw [Outcome.forIn_append (fun g => (List.range (g.outerInstruction :: g.innerInstructions).length).filterMap
    (triggerAt (g.outerInstruction :: g.innerInstructions))) (parseTrigger d tx.signature slot) ?_]
  · simp [-List.mapM, triggers]
  · intro g r
    rw [Outcome.forIn_push (fun x => triggerAt (g.outerInstruction :: g.innerInstructions) x.1)
      (parseTrigger d tx.signature slot) (fun r u => r ++ [u]) _ fun x hx r => ?_]
    · rw [filterMap_enum_triggerAt]
      simp [-List.mapM, List.foldl_push]
    · obtain ⟨i, instr⟩ := x
      have hi : (g.outerInstruction :: g.innerInstructions)[i]? = some instr :=
        List.mem_enum_iff_getElem?.1 hx
      simp only [triggerAt]
      by_cases h : i + 2 < (g.outerInstruction :: g.innerInstructions).length
      · rw [List.getElem?_eq_getElem (show i < (g.outerInstruction :: g.innerInstructions).length
          by omega), Option.some_inj] at hi
        rw [dif_pos (by omega), dif_pos h, hi]
        simp only [parseTrigger, beq_iff_eq, Bool.and_eq_true, List.contains, List.elem_eq_mem,
          decide_eq_true_eq, @eq_comm Pubkey accountCompressionProgramId, and_assoc]
        split_ifs <;> simp only [List.getElem_cons_succ, bind_pure_comp, map_pure, map_bind]
      · rw [dif_neg (by omega), dif_neg h]
        simp

/-! ### What the parser returns -/

/-- A trigger succeeds exactly when both payloads decode and the assembler succeeds on them. -/
theorem parseTrigger_eq_pure {d : Deserializers} {sig : Signature} {slot : UInt64}
    {t : Instruction × Instruction} {u : StateUpdate} :
    parseTrigger d sig slot t = pure u ↔
      ∃ cl ev, d.changelogs t.1.data = .ok cl ∧ d.publicTransactionEvent t.2.data = .ok ev ∧
        parsePublicTransactionEvent sig slot ev cl = pure u := by
  simp only [parseTrigger, Outcome.bind_eq_pure]
  constructor
  · rintro ⟨cl, hcl, ev, hev, h⟩
    cases hd : d.changelogs t.1.data <;> cases he : d.publicTransactionEvent t.2.data <;>
      simp_all [Except.mapError]
  · rintro ⟨cl, ev, hcl, hev, h⟩
    exact ⟨cl, by simp [hcl, Except.mapError], ev, by simp [hev, Except.mapError], h⟩

/-- A trigger reads nothing of its two instructions but their data. -/
theorem mapM_parseTrigger_congr {d : Deserializers} {sig : Signature} {slot : UInt64} :
    ∀ {l l' : List (Instruction × Instruction)},
      l.map (fun t => (t.1.data, t.2.data)) = l'.map (fun t => (t.1.data, t.2.data)) →
        l.mapM (parseTrigger d sig slot) = l'.mapM (parseTrigger d sig slot)
  | [], [], _ => rfl
  | t :: l, t' :: l', h => by
    simp only [List.map_cons, List.cons.injEq, Prod.mk.injEq] at h
    obtain ⟨⟨h₁, h₂⟩, h⟩ := h
    simp only [List.mapM_cons, mapM_parseTrigger_congr h]
    simp [parseTrigger, h₁, h₂]

/-- **The first failing trigger decides the parser**: when every trigger before `t` succeeds and
`t` does not, the parser ends with the outcome of `t`. -/
theorem parseTransaction_of_first_failure {d : Deserializers} {tx : TransactionInfo}
    {slot : UInt64} {pre post : List (Instruction × Instruction)} {t : Instruction × Instruction}
    (hT : triggers tx = pre ++ t :: post)
    (hpre : ∀ t' ∈ pre, ∃ u, parseTrigger d tx.signature slot t' = .ok u)
    (ht : ∀ u, parseTrigger d tx.signature slot t ≠ .ok u) :
    parseTransaction d tx slot = parseTrigger d tx.signature slot t := by
  obtain ⟨us, hus⟩ := Outcome.exists_mapM_eq_pure hpre
  rw [parseTransaction_eq, hT, ← bind_pure_comp, Outcome.mapM_append_cons_bind hus]
  exact Outcome.bind_eq_self ht _

/-- **What the parser returns.**  `parse_transaction` returns `Ok (merge_updates us)` exactly
when every trigger, in order, has both payloads decoding and the assembler returning `Ok` with
the matching entry of `us`.  Otherwise the first trigger that does not succeed decides the
outcome: its error, or its panic.  And the outcome depends on the transaction only through its
signature and the data of the payload instructions of its triggers. -/
theorem parseTransaction_ok_iff_triggers (d : Deserializers) (tx : TransactionInfo)
    (slot : UInt64) :
    (∀ r, parseTransaction d tx slot = .ok r ↔
      ∃ us, List.Forall₂ (fun (t : Instruction × Instruction) u =>
          ∃ cl ev, d.changelogs t.1.data = .ok cl ∧ d.publicTransactionEvent t.2.data = .ok ev ∧
            parsePublicTransactionEvent tx.signature slot ev cl = .ok u) (triggers tx) us ∧
        r = StateUpdate.mergeUpdates us) ∧
    (∀ pre t post, triggers tx = pre ++ t :: post →
      (∀ t' ∈ pre, ∃ u, parseTrigger d tx.signature slot t' = .ok u) →
      (∀ u, parseTrigger d tx.signature slot t ≠ .ok u) →
      parseTransaction d tx slot = parseTrigger d tx.signature slot t) ∧
    (∀ tx' : TransactionInfo, tx'.signature = tx.signature →
      (triggers tx').map (fun t => (t.1.data, t.2.data)) =
        (triggers tx).map (fun t => (t.1.data, t.2.data)) →
      parseTransaction d tx' slot = parseTransaction d tx slot) := by
  refine ⟨fun r => ?_, fun pre t post hT hpre ht => ?_, fun tx' hsig hdata => ?_⟩
  · simp only [parseTransaction_eq, Outcome.ok_eq_pure, Outcome.map_eq_pure, Outcome.mapM_eq_pure,
      parseTrigger_eq_pure]
    exact exists_congr fun us => and_congr_right fun _ => eq_comm
  · exact parseTransaction_of_first_failure hT hpre ht
  · rw [parseTransaction_eq, parseTransaction_eq, hsig, mapM_parseTrigger_congr hdata]

/-- Over the Borsh decoders: the first of two triggers names a tree beyond its one key, the
second carries payloads that do not decode.  The first decides, and it panics: the parser
returns neither its `MalformedEvent` nor the `ParserError` of the second. -/
theorem parseTransaction_first_failing_trigger_panics :
    let d := Borsh.deserializers Borsh.compressedAccountWithMerkleContext Borsh.compressedAccount
    let z : List UInt8 := List.replicate 32 0
    let acp : Instruction := ⟨accountCompressionProgramId, [noopProgramId], []⟩
    let t₁ : Instruction × Instruction := (⟨noopProgramId, [], [0, 0, 0, 0]⟩,
      ⟨noopProgramId, [], [1, 0, 0, 0] ++ z ++
        [0, 0, 0, 0, 1, 0, 0, 0, 0, 0, 0, 0, 1, 0, 0, 0, 0, 1, 0, 0, 0] ++ z⟩)
    let t₂ : Instruction × Instruction := (⟨noopProgramId, [], [9]⟩, ⟨noopProgramId, [], [9]⟩)
    let tx : TransactionInfo :=
      ⟨[⟨acp, [t₁.1, t₁.2, acp, t₂.1, t₂.2]⟩], ⟨⟨List.replicate 64 0, rfl⟩⟩⟩
    parseTrigger d tx.signature 0 t₁ =
        .panic "index out of bounds: the len is 1 but the index is 1" ∧
      parseTrigger d tx.signature 0 t₂ =
        .err (.parserError "Failed to deserialize Changelogs: Unexpected length of input") ∧
      parseTransaction d tx 0 = .panic "index out of bounds: the len is 1 but the index is 1" := by
  intro d z acp t₁ t₂ tx
  have h₁ : parseTrigger d tx.signature 0 t₁ =
      .panic "index out of bounds: the len is 1 but the index is 1" := by decide
  refine ⟨h₁, by decide, ?_⟩
  exact ((parseTransaction_ok_iff_triggers d tx 0).2.1 [] t₁ [t₂] (by decide) (by simp)
    fun u h => by rw [h₁] at h; cases h).trans h₁

/-- **Every parsed transaction has the invariants** (spec I3, I4): each trigger's update has
them, and merging keeps them. -/
theorem wellFormed_of_parseTransaction {d : Deserializers} {tx : TransactionInfo}
    {slot : UInt64} {u : StateUpdate} (h : parseTransaction d tx slot = .ok u) : u.WellFormed := by
  rw [parseTransaction_eq, Outcome.ok_eq_pure, Outcome.map_eq_pure] at h
  obtain ⟨us, hus, rfl⟩ := h
  refine StateUpdate.wellFormed_mergeUpdates.2 fun v hv => ?_
  obtain ⟨t, -, ht⟩ := Outcome.mem_of_mapM_eq_pure hus v hv
  obtain ⟨cl, ev, -, -, hv⟩ := parseTrigger_eq_pure.1 ht
  exact wellFormed_of_parsePublicTransactionEvent hv

/-- One trigger with one input account, one output account and a path of two nodes gives a
well-formed update. -/
theorem wellFormed_of_parseTransaction_one_trigger :
    let z : Bytes 32 := ⟨List.replicate 32 0, rfl⟩
    let noop : Instruction := ⟨noopProgramId, [], []⟩
    let tx : TransactionInfo :=
      ⟨[⟨⟨accountCompressionProgramId, [noopProgramId], []⟩, [noop, noop]⟩],
        ⟨⟨List.replicate 64 0, rfl⟩⟩⟩
    let cl : Changelogs := ⟨[.v1 ⟨z, [[⟨z, 0⟩, ⟨z, 1⟩]], 7, 0⟩]⟩
    let ev : PublicTransactionEvent := ⟨[z], [z], [⟨⟨[]⟩, 0⟩], [⟨[1]⟩], [⟨z⟩]⟩
    let u : StateUpdate :=
      ⟨[⟨⟨[]⟩, ⟨z⟩, none, 0, z⟩], [⟨⟨[1]⟩, ⟨z⟩, some 7, 0, z⟩],
        [⟨⟨z, 0⟩, 0, z, 7, 0, 2⟩, ⟨⟨z, 1⟩, 0, z, 7, 1, 2⟩]⟩
    parseTransaction ⟨fun _ => .ok cl, fun _ => .ok ev⟩ tx 0 = .ok u ∧ u.WellFormed := by
  intro z noop tx cl ev u
  have h : parseTransaction ⟨fun _ => .ok cl, fun _ => .ok ev⟩ tx 0 = .ok u := by decide
  exact ⟨h, wellFormed_of_parseTransaction h⟩

/-! ### Composition -/

/-- **The parser is compositional over instruction groups** (spec P1, §4.4): parsing the
groups of one transaction split in two is parsing the first part, then the second, and merging;
an error or a panic of the first part ends the parse. -/
theorem parseTransaction_append (d : Deserializers) (gs₁ gs₂ : List InstructionGroup)
    (sig : Signature) (slot : UInt64) :
    parseTransaction d ⟨gs₁ ++ gs₂, sig⟩ slot =
      parseTransaction d ⟨gs₁, sig⟩ slot >>= fun a =>
        parseTransaction d ⟨gs₂, sig⟩ slot >>= fun b => pure (a.merge b) := by
  simp [-List.mapM, parseTransaction_eq, triggers_append, List.mapM_append,
    StateUpdate.mergeUpdates_append]

/-- **No trigger, no update** (spec P6, §7): when no position of any group holds an
account-compression instruction that lists the noop program followed by two noop instructions,
the parser decodes no payload and returns the empty update, whatever the decoders. -/
theorem parseTransaction_of_no_trigger {d : Deserializers} {tx : TransactionInfo} (slot : UInt64)
    (h : ∀ g ∈ tx.instructionGroups, ∀ i,
      triggerAt (g.outerInstruction :: g.innerInstructions) i = none) :
    parseTransaction d tx slot = pure StateUpdate.new := by
  have hT : triggers tx = [] := List.eq_nil_iff_forall_not_mem.2 fun t ht => by
    obtain ⟨g, hg, i, hi⟩ := mem_triggers.1 ht
    simp [h g hg i] at hi
  rw [parseTransaction_eq, hT]
  rfl

/-- Noop instructions after an account-compression instruction that does not list the noop
program are not decoded, even when their data is no payload (the case the comment in
`parse_transaction` guards against). -/
theorem parseTransaction_of_no_trigger_unlisted_noop :
    let noop : Instruction := ⟨noopProgramId, [], [9]⟩
    let tx : TransactionInfo :=
      ⟨[⟨⟨accountCompressionProgramId, [], []⟩, [noop, noop]⟩], ⟨⟨List.replicate 64 0, rfl⟩⟩⟩
    (∀ g ∈ tx.instructionGroups, ∀ i,
        triggerAt (g.outerInstruction :: g.innerInstructions) i = none) ∧
      parseTransaction
        (Borsh.deserializers Borsh.compressedAccountWithMerkleContext Borsh.compressedAccount)
        tx 0 = pure StateUpdate.new := by
  intro noop tx
  have h : ∀ g ∈ tx.instructionGroups, ∀ i,
      triggerAt (g.outerInstruction :: g.innerInstructions) i = none := by
    intro g hg i
    obtain rfl := List.mem_singleton.1 hg
    rcases i with _ | i
    · decide
    · simp [triggerAt]
  exact ⟨h, parseTransaction_of_no_trigger 0 h⟩

/-- **A transaction holds at most a third of its instructions' worth of triggers**: the
parser decodes and assembles at most one event for every three instructions. -/
theorem three_mul_length_triggers_le (tx : TransactionInfo) :
    3 * (triggers tx).length ≤
      (tx.instructionGroups.map fun g => (g.outerInstruction :: g.innerInstructions).length).sum := by
  obtain ⟨gs, sig⟩ := tx
  induction gs with
  | nil => simp [triggers]
  | cons g gs ih =>
    have := three_mul_length_filterMap_triggerAt_le (g.outerInstruction :: g.innerInstructions)
    simp only [triggers, List.flatMap_cons, List.length_append, List.map_cons, List.sum_cons]
      at this ih ⊢
    omega

/-! ### The slot -/

theorem parseTrigger_withSlot (d : Deserializers) (sig : Signature) (s s' : UInt64) :
    parseTrigger d sig s' = fun t => StateUpdate.withSlot s' <$> parseTrigger d sig s t := by
  funext t
  simp only [parseTrigger, parsePublicTransactionEvent_eq, assemble_withSlot _ s s', map_bind]

/-- **The slot is only a stamp**: parsing a transaction at slot `s'` has the outcome of parsing
it at slot `s`, with every account and path node of the update stamped with `s'`.  The slot
decides no branch, no error and no panic. -/
theorem parseTransaction_withSlot (d : Deserializers) (tx : TransactionInfo) (s s' : UInt64) :
    parseTransaction d tx s' = StateUpdate.withSlot s' <$> parseTransaction d tx s := by
  rw [parseTransaction_eq, parseTransaction_eq, parseTrigger_withSlot d _ s s',
    Outcome.mapM_map_result, Functor.map_map, Functor.map_map]
  congr 1
  funext us
  exact (StateUpdate.withSlot_mergeUpdates s' us).symm

end Photon
