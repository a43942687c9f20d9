import TableScript.Notice

/-!
# Outcomes with notices

A computation answers or fails, and either way leaves the notices that it has given so far, in
order.
-/

namespace TableScript

/-- The outcome of a computation and the notices it has given. -/
structure Logged (α : Type) where
  notices : List Notice
  outcome : Except Failure α

namespace Logged

variable {α β : Type}

def answer (a : α) : Logged α := ⟨[], .ok a⟩

def fail (e : Failure) : Logged α := ⟨[], .error e⟩

def lift (x : Except Failure α) : Logged α := ⟨[], x⟩

/-- Gives a notice. One that cannot be written fails instead. -/
def note (n : Notice) : Logged Unit :=
  match requireWritable n.told with
  | .ok _ => ⟨[n], .ok ()⟩
  | .error e => fail e

/-- Runs the second computation on the answer of the first, and appends its notices. -/
def andThen (x : Logged α) (f : α → Logged β) : Logged β :=
  match x.outcome with
  | .ok a =>
    let y := f a
    ⟨x.notices ++ y.notices, y.outcome⟩
  | .error e => ⟨x.notices, .error e⟩

instance : Monad Logged where
  pure := answer
  bind := andThen

/-- Runs a computation on every member of a list, from left to right, until one fails. -/
def forEach (f : α → Logged β) : List α → Logged (List β)
  | [] => answer []
  | a :: rest => andThen (f a) fun b => andThen (forEach f rest) fun bs => answer (b :: bs)

theorem bind_ok (r : List Notice) (a : α) (f : α → Logged β) :
    (Logged.mk r (.ok a) >>= f) = ⟨r ++ (f a).notices, (f a).outcome⟩ := rfl

end Logged

end TableScript
