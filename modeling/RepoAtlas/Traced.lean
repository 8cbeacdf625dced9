import RepoAtlas.Failure
import RepoAtlas.Notice

/-!
# `RepoAtlas.Traced`: results with notices

A computation gives notices in order and ends with a result or a failure; a failure keeps the
notices given before it.

* `notices_bind_ok`, `outcome_bind_ok`: continuing after a result appends the notices.
* `bind_error`: nothing happens after a failure.
-/

set_option autoImplicit false

namespace RepoAtlas

/-- Notices and the outcome that they led to. -/
structure Traced (α : Type) where
  notices : List Notice
  outcome : Except Failure α

namespace Traced

variable {α β : Type}

/-- A result without notices. -/
def ok (result : α) : Traced α := ⟨[], .ok result⟩

/-- A failure without notices. -/
def fail (failure : Failure) : Traced α := ⟨[], .error failure⟩

/-- Goes on after a result, and stops after a failure. -/
def bind (x : Traced α) (next : α → Traced β) : Traced β :=
  match x.outcome with
  | .ok result =>
    let y := next result
    ⟨x.notices ++ y.notices, y.outcome⟩
  | .error failure => ⟨x.notices, .error failure⟩

instance : Monad Traced where
  pure := ok
  bind := bind

instance : MonadExceptOf Failure Traced where
  throw := fail
  tryCatch x handle :=
    match x.outcome with
    | .ok _ => x
    | .error failure =>
      let y := handle failure
      ⟨x.notices ++ y.notices, y.outcome⟩

/-- Gives a notice. -/
def note (level : Level) (topic : Topic) (text : String) : Traced Unit :=
  ⟨[⟨level, topic, text⟩], .ok ()⟩

/-- An outcome without notices. -/
def ofExcept (outcome : Except Failure α) : Traced α := ⟨[], outcome⟩

/-- A program goes on with its notices behind those that it has. -/
theorem notices_bind_ok {x : Traced α} {result : α} (next : α → Traced β)
    (h : x.outcome = .ok result) : (x >>= next).notices = x.notices ++ (next result).notices := by
  show (bind x next).notices = _
  simp [bind, h]

/-- It ends as what it goes on with. -/
theorem outcome_bind_ok {x : Traced α} {result : α} (next : α → Traced β)
    (h : x.outcome = .ok result) : (x >>= next).outcome = (next result).outcome := by
  show (bind x next).outcome = _
  simp [bind, h]

/-- A program that fails does not go on. -/
theorem bind_error {x : Traced α} {failure : Failure} (next : α → Traced β)
    (h : x.outcome = .error failure) : (x >>= next) = ⟨x.notices, .error failure⟩ := by
  show bind x next = _
  simp [bind, h]

end Traced

end RepoAtlas
