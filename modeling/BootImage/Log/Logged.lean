import BootImage.Log.Event

/-!
# Computations that log

A logged computation has a result, which may be an error, and the events that happened up to it.  Taking the
result commutes with sequencing (`result_bind`), so what is logged never has an influence on results.
-/

namespace BootImage

structure Logged (ε α : Type) where
  events : List Event := []
  result : Except ε α

namespace Logged

variable {ε α β : Type}

instance : Monad (Logged ε) where
  pure a := { result := .ok a }
  bind x f :=
    match x.result with
    | .ok a => ⟨x.events ++ (f a).events, (f a).result⟩
    | .error e => ⟨x.events, .error e⟩

def ofResult (result : Except ε α) : Logged ε α := { result }

def emit (events : List Event) : Logged ε Unit := ⟨events, .ok ()⟩

def note (level : Level) (message : String) : Logged ε Unit := emit [{ level, message }]

/-- A computation whose events happen in an activity. -/
def during (activity : Activity) (x : Logged ε α) : Logged ε α :=
  { x with events := x.events.map fun e => { e with activities := activity :: e.activities } }

@[simp] theorem result_pure (a : α) : (pure a : Logged ε α).result = .ok a := rfl

@[simp] theorem result_bind (x : Logged ε α) (f : α → Logged ε β) :
    (x >>= f).result = x.result >>= fun a => (f a).result := by
  show (match x.result with
    | .ok a => (⟨x.events ++ (f a).events, (f a).result⟩ : Logged ε β)
    | .error e => ⟨x.events, .error e⟩).result = _
  cases x.result <;> rfl

@[simp] theorem result_ofResult (r : Except ε α) : (ofResult r).result = r := rfl

@[simp] theorem result_emit (events : List Event) : (emit events : Logged ε Unit).result = .ok () := rfl

@[simp] theorem result_note (level : Level) (message : String) :
    (note level message : Logged ε Unit).result = .ok () := rfl

@[simp] theorem result_during (activity : Activity) (x : Logged ε α) :
    (during activity x).result = x.result := rfl

theorem result_foldlM (f : β → α → Logged ε β) (init : β) (xs : List α) :
    (xs.foldlM f init).result = xs.foldlM (fun b a => (f b a).result) init := by
  induction xs generalizing init with
  | nil => rfl
  | cons x xs ih => simp only [List.foldlM_cons, result_bind, ih]

end Logged

end BootImage
