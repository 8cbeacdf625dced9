import RepoAtlas.Proofs.Outcome

/-!
# `RepoAtlas.Proofs.Agreement`: two computations that lead to corresponding outcomes

To compare two runs, each step of one is compared with the same step of the other. `Agree F V` says
that two outcomes are both results, in the relation `V`, or both failures, in the relation `F`. It is
kept by everything that computations are put together with, so runs agree if their steps do.

* `Agree.bind`, `Agree.map`, `Agree.mapM`: steps one after the other, and a step for each of two
  lists that correspond.
* `agree_eq_iff`: with equality for both relations, to agree is to be equal.
* `Traced.Agrees`: the same for computations that give notices, whatever the notices.
-/

set_option autoImplicit false

namespace RepoAtlas

variable {ε ε' α α' β β' γ γ' : Type}

/-- Two outcomes that are results in one relation, or failures in another. -/
inductive Agree (F : ε → ε' → Prop) (V : α → α' → Prop) : Except ε α → Except ε' α' → Prop
  | ok {a : α} {a' : α'} (h : V a a') : Agree F V (.ok a) (.ok a')
  | error {fault : ε} {fault' : ε'} (h : F fault fault') : Agree F V (.error fault) (.error fault')

/-- Results that agree in what they hold are equal. -/
theorem agree_eq_iff {x y : Except ε α} : Agree Eq Eq x y ↔ x = y := by
  constructor
  · intro h
    cases h with
    | ok h => rw [h]
    | error h => rw [h]
  · rintro rfl
    cases x with
    | ok a => exact .ok rfl
    | error fault => exact .error rfl

namespace Agree

variable {F : ε → ε' → Prop} {V : α → α' → Prop} {W : β → β' → Prop}

/-- Every outcome agrees with itself. -/
theorem refl {F : ε → ε → Prop} (hF : ∀ fault, F fault fault) (x : Except ε α) : Agree F Eq x x := by
  cases x with
  | ok a => exact .ok rfl
  | error fault => exact .error (hF fault)

/-- Agreement is kept where its two relations are weakened. -/
theorem imp {F' : ε → ε' → Prop} {V' : α → α' → Prop} {x : Except ε α} {x' : Except ε' α'}
    (h : Agree F V x x') (hF : ∀ fault fault', F fault fault' → F' fault fault')
    (hV : ∀ a a', V a a' → V' a a') : Agree F' V' x x' := by
  cases h with
  | ok h => exact .ok (hV _ _ h)
  | error h => exact .error (hF _ _ h)

/-- Without results, and with no regard to failures, outcomes agree. -/
theorem of_ne_ok {x : Except ε α} {x' : Except ε' α'} (h : ∀ a, x ≠ .ok a) (h' : ∀ a, x' ≠ .ok a) :
    Agree (fun _ _ => True) V x x' := by
  cases x with
  | ok a => exact absurd rfl (h a)
  | error fault =>
    cases x' with
    | ok a => exact absurd rfl (h' a)
    | error fault' => exact .error trivial

/-- Steps that follow need to agree on the results that there are. -/
theorem bind_of_eq_ok {x : Except ε α} {x' : Except ε' α'} {next : α → Except ε β}
    {next' : α' → Except ε' β'} (h : Agree F V x x')
    (hnext : ∀ a a', x = .ok a → V a a' → Agree F W (next a) (next' a')) :
    Agree F W (x >>= next) (x' >>= next') := by
  cases h with
  | ok h => exact hnext _ _ rfl h
  | error h => exact .error h

/-- Programs that agree go on agreeing one after the other. -/
theorem bind {x : Except ε α} {x' : Except ε' α'} {next : α → Except ε β}
    {next' : α' → Except ε' β'} (h : Agree F V x x')
    (hnext : ∀ a a', V a a' → Agree F W (next a) (next' a')) :
    Agree F W (x >>= next) (x' >>= next') :=
  h.bind_of_eq_ok fun a a' _ => hnext a a'

/-- What is made of agreeing results agrees. -/
theorem map {x : Except ε α} {x' : Except ε' α'} {f : α → β} {f' : α' → β'} (h : Agree F V x x')
    (hf : ∀ a a', V a a' → W (f a) (f' a')) : Agree F W (x.map f) (x'.map f') := by
  cases h with
  | ok h => exact .ok (hf _ _ h)
  | error h => exact .error h

/-- A step for each member of two lists that correspond. -/
theorem mapM {R : γ → γ' → Prop} {f : γ → Except ε β} {f' : γ' → Except ε' β'} {xs : List γ}
    {ys : List γ'} (h : List.Forall₂ R xs ys) (hf : ∀ x y, R x y → Agree F W (f x) (f' y)) :
    Agree F (List.Forall₂ W) (xs.mapM f) (ys.mapM f') := by
  induction h with
  | nil => exact .ok .nil
  | cons hxy _ ih =>
    rw [List.mapM_cons, List.mapM_cons]
    exact (hf _ _ hxy).bind fun _ _ hb => ih.bind fun _ _ hrest => .ok (.cons hb hrest)

/-- Of two outcomes that agree, both are results or neither is. -/
theorem toOption_eq {F : ε → ε' → Prop} {x : Except ε α} {x' : Except ε' α} (h : Agree F Eq x x') :
    x.toOption = x'.toOption := by
  cases h with
  | ok h => exact congrArg some h
  | error _ => rfl

end Agree

/-- Steps that are the same for partners in two lists. -/
theorem mapM_eq_mapM_of_forall₂ {R : γ → γ' → Prop} {f : γ → Except ε β} {f' : γ' → Except ε β} {xs : List γ}
    {ys : List γ'} (h : List.Forall₂ R xs ys) (hf : ∀ x y, R x y → f x = f' y) :
    xs.mapM f = ys.mapM f' := by
  have hsteps := Agree.mapM h fun x y hxy => agree_eq_iff.mpr (hf x y hxy)
  rw [List.forall₂_eq_eq_eq] at hsteps
  exact agree_eq_iff.mp hsteps

/-- A test that comes out the same for partners in two lists. -/
theorem any_eq_any_of_forall₂ {R : α → α' → Prop} {p : α → Bool} {q : α' → Bool} {xs : List α}
    {ys : List α'} (h : List.Forall₂ R xs ys) (hpq : ∀ x y, R x y → p x = q y) :
    xs.any p = ys.any q := by
  induction h with
  | nil => rfl
  | cons hxy _ ih => rw [List.any_cons, List.any_cons, hpq _ _ hxy, ih]

/-- Of partners in two lists, the first that pass a test are partners. -/
theorem rel_find?_of_forall₂ {R : α → α' → Prop} {p : α → Bool} {q : α' → Bool} {xs : List α}
    {ys : List α'} (h : List.Forall₂ R xs ys) (hpq : ∀ x y, R x y → p x = q y) :
    Option.Rel R (xs.find? p) (ys.find? q) := by
  induction h with
  | nil => exact .none
  | @cons x y _ _ hxy _ ih =>
    rw [List.find?_cons, List.find?_cons, ← hpq x y hxy]
    cases p x with
    | true => exact .some hxy
    | false => exact ih

namespace Traced

/-- Two computations with notices that lead to corresponding outcomes. -/
def Agrees (F : Failure → Failure → Prop) (V : α → α' → Prop) (x : Traced α) (y : Traced α') : Prop :=
  Agree F V x.outcome y.outcome

namespace Agrees

variable {F : Failure → Failure → Prop} {V : α → α' → Prop} {W : β → β' → Prop}

/-- Matched results agree. -/
theorem pure {a : α} {a' : α'} (h : V a a') : Agrees F V (Pure.pure a) (Pure.pure a') :=
  .ok h

/-- Matched failures agree. -/
theorem fail {failure failure' : Failure} (h : F failure failure') :
    Agrees F V (Traced.fail failure) (Traced.fail failure') :=
  .error h

/-- Agreement of plain results is agreement without notices. -/
theorem ofExcept {x : Except Failure α} {x' : Except Failure α'} (h : Agree F V x x') :
    Agrees F V (Traced.ofExcept x) (Traced.ofExcept x') :=
  h

/-- Only results that the first part leads to are gone on with. -/
theorem bind_of_eq_ok {x : Traced α} {x' : Traced α'} {next : α → Traced β}
    {next' : α' → Traced β'} (h : Agrees F V x x')
    (hnext : ∀ a a', x.outcome = .ok a → V a a' → Agrees F W (next a) (next' a')) :
    Agrees F W (x >>= next) (x' >>= next') := by
  unfold Agrees
  rw [outcome_bind, outcome_bind]
  exact Agree.bind_of_eq_ok h hnext

/-- Traced programs that agree go on agreeing one after the other. -/
theorem bind {x : Traced α} {x' : Traced α'} {next : α → Traced β} {next' : α' → Traced β'}
    (h : Agrees F V x x') (hnext : ∀ a a', V a a' → Agrees F W (next a) (next' a')) :
    Agrees F W (x >>= next) (x' >>= next') :=
  h.bind_of_eq_ok fun a a' _ => hnext a a'

/-- Notices may differ. -/
theorem note_bind {level level' : Level} {topic topic' : Topic} {text text' : String}
    {next : Unit → Traced β} {next' : Unit → Traced β'} (h : Agrees F W (next ()) (next' ())) :
    Agrees F W (Traced.note level topic text >>= next) (Traced.note level' topic' text' >>= next') :=
  bind (V := fun _ _ => True) (.ok trivial) fun _ _ _ => h

/-- So do they along matched lists. -/
theorem mapM {R : γ → γ' → Prop} {f : γ → Traced β} {f' : γ' → Traced β'} {xs : List γ}
    {ys : List γ'} (h : List.Forall₂ R xs ys) (hf : ∀ x y, R x y → Agrees F W (f x) (f' y)) :
    Agrees F (List.Forall₂ W) (xs.mapM f) (ys.mapM f') := by
  unfold Agrees
  rw [outcome_mapM, outcome_mapM]
  exact Agree.mapM h hf

end Agrees

end Traced

end RepoAtlas
