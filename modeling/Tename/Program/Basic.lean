import Mathlib.Control.Monad.Basic

/-!
# Programs over an interface of operations

A `Program` is a tree of requests: it returns, raises, or asks its environment
to perform an operation and continues with the outcome, which is a result or
an exception of the operation. What the operations do is not part of the
program, so one program can be run against a faithful environment, killed
between two operations, or interleaved with other parties.

The control structures are those of a language with exceptions: sequencing,
`attempt`, and `tryFinally`, whose second part runs on every way out of the
first and then lets the first one's outcome pass.
-/

/-- A program that performs operations `Op` with results `Res` and may raise `ε`. -/
inductive Program (Op : Type) (Res : Op → Type) (ε : Type) (α : Type) : Type where
  | pure (value : α)
  | throw (error : ε)
  | op (request : Op) (next : Except ε (Res request) → Program Op Res ε α)

namespace Program

variable {Op : Type} {Res : Op → Type} {ε α β : Type}

def bind : Program Op Res ε α → (α → Program Op Res ε β) → Program Op Res ε β
  | pure a, f => f a
  | throw e, _ => throw e
  | op o k, f => op o fun r => (k r).bind f

instance : Monad (Program Op Res ε) where
  pure := Program.pure
  bind := Program.bind

/-- Ask for one operation; its exception, if any, propagates. -/
def perform (o : Op) : Program Op Res ε (Res o) :=
  op o fun
    | .ok r => pure r
    | .error e => throw e

/-- Run to the end and return the outcome, raised or not. -/
def attempt : Program Op Res ε α → Program Op Res ε (Except ε α)
  | pure a => pure (.ok a)
  | throw e => pure (.error e)
  | op o k => op o fun r => (k r).attempt

/-- Return the value of an outcome or raise its exception. -/
def settle : Except ε α → Program Op Res ε α
  | .ok a => pure a
  | .error e => throw e

/-- `try … finally …`: the cleanup runs on every way out, then the outcome passes. -/
def tryFinally (body : Program Op Res ε α) (cleanup : Program Op Res ε Unit) :
    Program Op Res ε α :=
  body.attempt.bind fun outcome => cleanup.bind fun _ => settle outcome

@[simp] theorem pure_bind' (a : α) (f : α → Program Op Res ε β) : (pure a).bind f = f a := rfl

@[simp] theorem throw_bind (e : ε) (f : α → Program Op Res ε β) :
    (throw e).bind f = throw e := rfl

@[simp] theorem op_bind (o : Op) (k : Except ε (Res o) → Program Op Res ε α)
    (f : α → Program Op Res ε β) : (op o k).bind f = op o fun r => (k r).bind f := rfl

@[simp] theorem monad_bind_eq (p : Program Op Res ε α) (f : α → Program Op Res ε β) :
    (p >>= f) = p.bind f := rfl

@[simp] theorem monad_pure_eq (a : α) : (Pure.pure a : Program Op Res ε α) = pure a := rfl

theorem bind_assoc {γ : Type} (p : Program Op Res ε α) (f : α → Program Op Res ε β)
    (g : β → Program Op Res ε γ) : (p.bind f).bind g = p.bind fun a => (f a).bind g := by
  induction p with
  | pure => rfl
  | throw => rfl
  | op o k ih => simp only [op_bind, ih]

/-- A `for` loop over a list, left to right; an exception leaves it. -/
def forEach (xs : List β) (body : β → Program Op Res ε Unit) : Program Op Res ε Unit :=
  match xs with
  | [] => pure ()
  | x :: xs => (body x).bind fun _ => forEach xs body

@[simp] theorem forEach_nil (body : β → Program Op Res ε Unit) :
    forEach [] body = (pure () : Program Op Res ε Unit) := rfl

@[simp] theorem forEach_cons (x : β) (xs : List β) (body : β → Program Op Res ε Unit) :
    forEach (x :: xs) body = (body x).bind fun _ => forEach xs body := rfl

end Program
