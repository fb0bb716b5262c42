/-
**The outcome of a Rust call: `Ok`, `Err`, or a panic.**

The parser in `src/ingester/parser/mod.rs` returns `Result<StateUpdate, IngesterError>`, and one
of its steps, indexing `pubkey_array` with a decoded index, panics on an index out of bounds
instead of returning an error.  A model in `Except` alone could not tell a returned error from a
panic, so the functions of the model return an outcome with three cases.  It is a lawful monad,
so that the `do` blocks and `for` loops of the translation keep the shape of the source.

Main definitions:

* `Photon.Outcome` — a call returns `ok a`, returns `err e`, or panics with a message;
* `Photon.Outcome.Failure` — an error or a panic, at any result type;
* `Photon.Outcome.ofExcept` — a `Result` as an outcome that does not panic;
* `Photon.index` — `v[i]` on a `Vec`: the element, or the out-of-bounds panic.

Main results:

* `Photon.Outcome.bind_eq_pure` — a sequence succeeds exactly when both halves do;
* `Photon.Outcome.mapM_eq_pure` — a traversal succeeds exactly when every element does, with the
  results in order;
* `Photon.Outcome.mapM_append_cons_bind` — after the elements before `a` have succeeded, a
  traversal goes on with the call on `a`: its first failure is its outcome;
* `Photon.Outcome.mapM_eq_failure` — a traversal fails exactly as its first failing element
  does, with its error or its panic (`Photon.Outcome.mapM_eq_err`, `Photon.Outcome.mapM_eq_panic`);
* `Photon.Outcome.forIn_push`, `Photon.Outcome.forIn_append` — the two loop shapes of the parser
  (push the result of each selected element; run an inner loop for each element) are
  traversals.
-/

import Mathlib.Data.List.Forall2

set_option relaxedAutoImplicit false
set_option autoImplicit false

namespace Photon

/-- What a call of a Rust function returning `Result<α, ε>` does: it returns `Ok`, returns
`Err`, or panics with a message. -/
inductive Outcome (ε α : Type) where
  | ok (a : α)
  | err (e : ε)
  | panic (msg : String)
deriving DecidableEq, Repr

namespace Outcome

variable {ε α β γ : Type}

/-- Sequencing: an error (Rust's `?`) or a panic ends the computation. -/
def bind : Outcome ε α → (α → Outcome ε β) → Outcome ε β
  | ok a, f => f a
  | err e, _ => err e
  | panic m, _ => panic m

instance : Monad (Outcome ε) where
  pure := ok
  bind := bind

instance : LawfulMonad (Outcome ε) := LawfulMonad.mk' (Outcome ε)
  (by intro α x; cases x <;> rfl)
  (fun _ _ => rfl)
  (by intro α β γ x f g; cases x <;> rfl)

instance : MonadExceptOf ε (Outcome ε) where
  throw := err
  tryCatch x h := match x with
    | err e => h e
    | x => x

@[simp] theorem ok_eq_pure (a : α) : (ok a : Outcome ε α) = pure a := rfl

@[simp] theorem throw_eq_err (e : ε) : (throw e : Outcome ε α) = err e := rfl

@[simp] theorem err_bind (e : ε) (f : α → Outcome ε β) : (err e : Outcome ε α) >>= f = err e :=
  rfl

@[simp] theorem panic_bind (m : String) (f : α → Outcome ε β) :
    (panic m : Outcome ε α) >>= f = panic m := rfl

@[simp] theorem map_err (f : α → β) (e : ε) : f <$> (err e : Outcome ε α) = err e := rfl

@[simp] theorem map_panic (f : α → β) (m : String) :
    f <$> (panic m : Outcome ε α) = panic m := rfl

@[simp] theorem pure_inj {a b : α} : (pure a : Outcome ε α) = pure b ↔ a = b :=
  ⟨fun h => by cases h; rfl, fun h => h ▸ rfl⟩

@[simp] theorem pure_ne_err (a : α) (e : ε) : (pure a : Outcome ε α) ≠ err e :=
  fun h => Outcome.noConfusion h

@[simp] theorem err_ne_pure (a : α) (e : ε) : (err e : Outcome ε α) ≠ pure a :=
  fun h => Outcome.noConfusion h

@[simp] theorem pure_ne_panic (a : α) (m : String) : (pure a : Outcome ε α) ≠ panic m :=
  fun h => Outcome.noConfusion h

@[simp] theorem panic_ne_pure (a : α) (m : String) : (panic m : Outcome ε α) ≠ pure a :=
  fun h => Outcome.noConfusion h

/-- A sequence succeeds exactly when its first half does and the rest succeeds on its value. -/
theorem bind_eq_pure {x : Outcome ε α} {f : α → Outcome ε β} {b : β} :
    x >>= f = pure b ↔ ∃ a, x = pure a ∧ f a = pure b := by
  cases x <;> simp

theorem map_eq_pure {x : Outcome ε α} {f : α → β} {b : β} :
    f <$> x = pure b ↔ ∃ a, x = pure a ∧ f a = b := by
  cases x <;> simp

/-! ### Failures -/

/-- What a call that does not succeed ends with, whatever it would have returned: an error or a
panic.  The lemmas about failures are stated once for both. -/
inductive Failure (ε : Type) where
  | err (e : ε)
  | panic (msg : String)

/-- A failure as the outcome of a call. -/
def Failure.toOutcome : Failure ε → Outcome ε α
  | .err e => Outcome.err e
  | .panic m => Outcome.panic m

@[simp] theorem failure_bind (F : Failure ε) (f : α → Outcome ε β) :
    (F.toOutcome : Outcome ε α) >>= f = F.toOutcome := by
  cases F <;> rfl

@[simp] theorem failure_ne_pure (F : Failure ε) (a : α) : (F.toOutcome : Outcome ε α) ≠ pure a := by
  cases F <;> simp [Failure.toOutcome]

/-- A sequence fails exactly when its first half does, or succeeds and the rest fails. -/
theorem bind_eq_failure (F : Failure ε) {x : Outcome ε α} {f : α → Outcome ε β} :
    x >>= f = F.toOutcome ↔ x = F.toOutcome ∨ ∃ a, x = pure a ∧ f a = F.toOutcome := by
  cases x <;> cases F <;> simp [Failure.toOutcome]

theorem map_eq_failure (F : Failure ε) {x : Outcome ε α} {f : α → β} :
    f <$> x = F.toOutcome ↔ x = F.toOutcome := by
  cases x <;> cases F <;> simp [Failure.toOutcome]

theorem bind_eq_err {x : Outcome ε α} {f : α → Outcome ε β} {e : ε} :
    x >>= f = err e ↔ x = err e ∨ ∃ a, x = pure a ∧ f a = err e :=
  bind_eq_failure (.err e)

theorem bind_eq_panic {x : Outcome ε α} {f : α → Outcome ε β} {m : String} :
    x >>= f = panic m ↔ x = panic m ∨ ∃ a, x = pure a ∧ f a = panic m :=
  bind_eq_failure (.panic m)

theorem map_eq_err {x : Outcome ε α} {f : α → β} {e : ε} : f <$> x = err e ↔ x = err e :=
  map_eq_failure (.err e)

theorem map_eq_panic {x : Outcome ε α} {f : α → β} {m : String} :
    f <$> x = panic m ↔ x = panic m :=
  map_eq_failure (.panic m)

/-- A call that does not succeed ends any sequence it starts with its own outcome. -/
theorem bind_eq_self {x : Outcome ε α} (hx : ∀ a, x ≠ pure a) (f : α → Outcome ε α) :
    x >>= f = x := by
  cases x with
  | ok a => exact absurd rfl (hx a)
  | err e => rfl
  | panic m => rfl

/-! ### Results and panics -/

/-- A `Result` seen as an outcome: `Ok` and `Err` carry over, and nothing panics. -/
def ofExcept : Except ε α → Outcome ε α
  | .ok a => ok a
  | .error e => err e

@[simp] theorem ofExcept_ok (a : α) : ofExcept (.ok a : Except ε α) = pure a := rfl

@[simp] theorem ofExcept_error (e : ε) : ofExcept (.error e : Except ε α) = err e := rfl

/-! ### Traversals -/

/-- **A traversal succeeds exactly when every element does**, with the results in order. -/
theorem mapM_eq_pure {f : α → Outcome ε β} :
    ∀ {l : List α} {us : List β}, l.mapM f = pure us ↔ List.Forall₂ (fun a u => f a = pure u) l us
  | [], us => by cases us <;> simp [-List.mapM]
  | a :: l, us => by
    cases us with
    | nil => simp [-List.mapM, List.mapM_cons, bind_eq_pure, map_eq_pure]
    | cons u us => simp [-List.mapM, List.mapM_cons, bind_eq_pure, map_eq_pure, mapM_eq_pure]

/-- A traversal all of whose elements succeed. -/
theorem exists_mapM_eq_pure {f : α → Outcome ε β} :
    ∀ {l : List α}, (∀ x ∈ l, ∃ u, f x = pure u) → ∃ us, l.mapM f = pure us
  | [], _ => ⟨[], rfl⟩
  | a :: l, h => by
    obtain ⟨u, hu⟩ := h a (List.mem_cons_self a l)
    obtain ⟨us, hus⟩ := exists_mapM_eq_pure fun x hx => h x (List.mem_cons_of_mem a hx)
    exact ⟨u :: us, by simp [-List.mapM, List.mapM_cons, hu, hus]⟩

theorem exists_mapM_eq_pure_iff {f : α → Outcome ε β} {l : List α} :
    (∃ us, l.mapM f = pure us) ↔ ∀ x ∈ l, ∃ u, f x = pure u := by
  refine ⟨?_, exists_mapM_eq_pure⟩
  rintro ⟨us, h⟩
  have h₂ := mapM_eq_pure.1 h
  clear h
  induction h₂ with
  | nil => simp
  | cons hfa _ ih => exact List.forall_mem_cons.2 ⟨⟨_, hfa⟩, ih⟩

/-- Every result of a successful traversal is the result of one of its elements. -/
theorem mem_of_mapM_eq_pure {f : α → Outcome ε β} {l : List α} {us : List β}
    (h : l.mapM f = pure us) : ∀ u ∈ us, ∃ x ∈ l, f x = pure u := by
  have h₂ := mapM_eq_pure.1 h
  clear h
  induction h₂ with
  | nil => simp
  | cons hfa _ ih =>
    exact List.forall_mem_cons.2 ⟨⟨_, List.mem_cons_self _ _, hfa⟩,
      fun u hu => (ih u hu).imp fun _ ⟨hx, hfx⟩ => ⟨List.mem_cons_of_mem _ hx, hfx⟩⟩

/-- Mapping the result of every call of a traversal maps its list of results. -/
theorem mapM_map_result {f : β → γ} {g : α → Outcome ε β} :
    ∀ l : List α, l.mapM (fun x => f <$> g x) = List.map f <$> l.mapM g
  | [] => rfl
  | a :: l => by
    simp only [List.mapM_cons, mapM_map_result l, bind_map_left, map_bind, List.map_cons]
    cases g a <;> cases l.mapM g <;> rfl

/-- **A traversal runs its elements in order**: once the elements before `a` have succeeded
with `us`, what follows is the call on `a`, then the rest of the traversal. -/
theorem mapM_append_cons_bind {f : α → Outcome ε β} {pre post : List α} {a : α} {us : List β}
    (hpre : pre.mapM f = pure us) (k : List β → Outcome ε γ) :
    (pre ++ a :: post).mapM f >>= k =
      f a >>= fun u => post.mapM f >>= fun vs => k (us ++ u :: vs) := by
  simp [-List.mapM, List.mapM_append, List.mapM_cons, hpre]

/-- **A traversal that does not succeed has a first element that does not**, and every element
before it succeeds. -/
theorem exists_first_failure {f : α → Outcome ε β} {l : List α} (h : ∀ us, l.mapM f ≠ pure us) :
    ∃ pre x post, l = pre ++ x :: post ∧ (∀ y ∈ pre, ∃ u, f y = pure u) ∧ ∀ u, f x ≠ pure u := by
  classical
  obtain ⟨x, hx, hfx⟩ : ∃ x ∈ l, ¬∃ u, f x = pure u := by
    by_contra hall
    push_neg at hall
    obtain ⟨us, hus⟩ := exists_mapM_eq_pure hall
    exact h us hus
  obtain ⟨x, pre, post, hpre, hx', rfl, -⟩ :=
    @List.exists_of_eraseP _ (fun y => !decide (∃ u, f y = pure u)) _ _ hx (by simpa using hfx)
  exact ⟨pre, x, post, rfl, fun y hy => by simpa using hpre y hy, by simpa using hx'⟩

/-- **A traversal fails exactly as its first failing element does**: with its error, or with
its panic. -/
theorem mapM_eq_failure (F : Failure ε) {f : α → Outcome ε β} {l : List α} :
    l.mapM f = F.toOutcome ↔
      ∃ pre x post, l = pre ++ x :: post ∧ (∀ y ∈ pre, ∃ u, f y = pure u) ∧ f x = F.toOutcome := by
  constructor
  · intro h
    obtain ⟨pre, x, post, rfl, hpre, hx⟩ :=
      exists_first_failure fun us hus => failure_ne_pure F us (h.symm.trans hus)
    obtain ⟨us, hus⟩ := exists_mapM_eq_pure hpre
    rw [← bind_pure (List.mapM f _), mapM_append_cons_bind hus, bind_eq_failure] at h
    exact ⟨pre, x, post, rfl, hpre, h.resolve_right fun ⟨u, hu, _⟩ => hx u hu⟩
  · rintro ⟨pre, x, post, rfl, hpre, hx⟩
    obtain ⟨us, hus⟩ := exists_mapM_eq_pure hpre
    rw [← bind_pure (List.mapM f _), mapM_append_cons_bind hus, hx, failure_bind]

theorem mapM_eq_err {f : α → Outcome ε β} {l : List α} {e : ε} :
    l.mapM f = err e ↔
      ∃ pre x post, l = pre ++ x :: post ∧ (∀ y ∈ pre, ∃ u, f y = pure u) ∧ f x = err e :=
  mapM_eq_failure (.err e)

theorem mapM_eq_panic {f : α → Outcome ε β} {l : List α} {m : String} :
    l.mapM f = panic m ↔
      ∃ pre x post, l = pre ++ x :: post ∧ (∀ y ∈ pre, ∃ u, f y = pure u) ∧ f x = panic m :=
  mapM_eq_failure (.panic m)

/-! ### Loops -/

/-- **A loop that pushes the result of each selected element is a traversal** of the selected
elements: `body x` skips `x` when `sel x = none` and pushes the value of `g b` when
`sel x = some b`; an error or a panic of `g` ends the loop. -/
theorem forIn_push {σ β' : Type} {body : α → σ → Outcome ε (ForInStep σ)}
    (sel : α → Option β') (g : β' → Outcome ε γ) (push : σ → γ → σ) :
    ∀ (l : List α), (∀ x ∈ l, ∀ r, body x r = match sel x with
      | none => pure (.yield r)
      | some b => (fun u => .yield (push r u)) <$> g b) →
    ∀ (acc : σ), forIn l acc body = (fun us => us.foldl push acc) <$> (l.filterMap sel).mapM g
  | [], _, acc => by simp [-List.mapM]
  | x :: l, hbody, acc => by
    have ih := forIn_push sel g push l fun y hy => hbody y (List.mem_cons_of_mem x hy)
    rw [List.forIn_cons, hbody x (List.mem_cons_self x l)]
    cases h : sel x with
    | none => simp [-List.mapM, List.filterMap_cons_none h, ih]
    | some b => cases g b <;> simp [-List.mapM, List.filterMap_cons_some h, List.mapM_cons, ih]

/-- A traversal that cannot fail is a map. -/
theorem mapM_pure {β' : Type} (f : β' → γ) :
    ∀ l : List β', l.mapM (fun x => (pure (f x) : Outcome ε γ)) = pure (l.map f)
  | [] => rfl
  | x :: l => by simp [-List.mapM, List.mapM_cons, mapM_pure f l]

/-- A loop whose body cannot fail is a fold. -/
theorem forIn_pure_yield {σ : Type} (f : α → σ → σ) :
    ∀ (l : List α) (acc : σ),
      forIn l acc (fun x r => (pure (.yield (f x r)) : Outcome ε (ForInStep σ))) =
        pure (l.foldl (fun r x => f x r) acc)
  | [], _ => rfl
  | x :: l, acc => by simp [forIn_pure_yield f l]

/-- **A loop that runs an inner traversal for each element is one traversal** of all the inner
elements, in order. -/
theorem forIn_append {β' : Type} {body : α → List γ → Outcome ε (ForInStep (List γ))}
    (T : α → List β') (g : β' → Outcome ε γ)
    (hbody : ∀ x r, body x r = (fun us => .yield (r ++ us)) <$> (T x).mapM g) :
    ∀ (l : List α) (acc : List γ),
      forIn l acc body = (fun us => acc ++ us) <$> (l.flatMap T).mapM g
  | [], acc => by simp [-List.mapM]
  | x :: l, acc => by
    rw [List.forIn_cons, hbody, List.flatMap_cons, List.mapM_append]
    cases (T x).mapM g <;> simp [-List.mapM, forIn_append T g hbody]

end Outcome

/-- `v[i]` on a Rust `Vec`: the element at `i`, or the out-of-bounds panic. -/
def index {ε α : Type} (v : List α) (i : ℕ) : Outcome ε α :=
  match v[i]? with
  | some a => .ok a
  | none =>
    let len := v.length
    .panic s!"index out of bounds: the len is {len} but the index is {i}"

theorem index_of_lt {ε α : Type} {v : List α} {i : ℕ} (h : i < v.length) :
    (index v i : Outcome ε α) = pure v[i] := by
  simp [index, h]

theorem index_of_le {ε α : Type} {v : List α} {i : ℕ} (h : v.length ≤ i) :
    (index v i : Outcome ε α) =
      .panic s!"index out of bounds: the len is {v.length} but the index is {i}" := by
  simp [index, List.getElem?_eq_none h]

end Photon
