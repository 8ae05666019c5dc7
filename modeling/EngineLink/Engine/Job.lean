/-!
# Jobs

Code of the engine does not run in one go: it is held up by questions, by requests of clients and
by the outside. A job says what the code requests next and how it goes on with each reply, so that
the rest of the code can be put aside in between.

## Main definitions

* `Job` — code that makes requests
* `Job.bind` — one job after another
* `Job.interpret` — carry out the requests of a job in a monad
-/

namespace EngineLink

/-- Code that makes requests `R`, gets replies `A` and ends with a result in `α`. -/
inductive Job (R : Type) (A : R → Type) (α : Type) where
  | done (result : α)
  | call (request : R) (next : A request → Job R A α)

namespace Job

variable {R : Type} {A : R → Type} {α β γ : Type}

/-- Make one request. -/
def request (r : R) : Job R A (A r) := .call r .done

/-- Go on with the result of a job. -/
def bind : Job R A α → (α → Job R A β) → Job R A β
  | done a, f => f a
  | call r next, f => call r fun reply => (next reply).bind f

instance : Monad (Job R A) where
  pure := done
  bind := bind

@[simp] theorem pure_eq (a : α) : (pure a : Job R A α) = done a := rfl

@[simp] theorem bind_eq (j : Job R A α) (f : α → Job R A β) : j >>= f = j.bind f := rfl

@[simp] theorem done_bind (a : α) (f : α → Job R A β) : (done a).bind f = f a := rfl

@[simp] theorem call_bind (r : R) (next : A r → Job R A α) (f : α → Job R A β) :
    (call r next).bind f = call r fun reply => (next reply).bind f := rfl

@[simp] theorem bind_done (j : Job R A α) : j.bind done = j := by
  induction j with
  | done a => rfl
  | call r next ih => simp [ih]

theorem bind_assoc (j : Job R A α) (f : α → Job R A β) (g : β → Job R A γ) :
    (j.bind f).bind g = j.bind fun a => (f a).bind g := by
  induction j with
  | done a => rfl
  | call r next ih => simp [ih]

instance : LawfulMonad (Job R A) :=
  LawfulMonad.mk' _ (fun j => bind_done j) (fun _ _ => rfl) fun j f g => bind_assoc j f g

/-- Carry out the requests of a job in a monad. -/
def interpret {m : Type → Type} [Monad m] (handler : (r : R) → m (A r)) : Job R A α → m α
  | done a => pure a
  | call r next => do interpret handler (next (← handler r))

theorem interpret_bind {m : Type → Type} [Monad m] [LawfulMonad m] (handler : (r : R) → m (A r))
    (j : Job R A α) (f : α → Job R A β) :
    (j.bind f).interpret handler = j.interpret handler >>= fun a => (f a).interpret handler := by
  induction j with
  | done a => simp [interpret]
  | call r next ih => simp [interpret, ih]

end Job

end EngineLink
