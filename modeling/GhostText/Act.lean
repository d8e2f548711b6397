import GhostText.Fault

/-!
# Actions on a state

Computations that change a state and may fail. What was changed before a failure stays changed.
-/

namespace GhostText

abbrev Act (σ : Type) := ExceptT Fault (StateM σ)

namespace Act

variable {σ α : Type}

/-- Runs an action from a state. -/
def runFrom (x : Act σ α) (s : σ) : Except Fault α × σ := x s

theorem runFrom_bind {β : Type} {x : Act σ α} {s t : σ} {a : α} (h : x.runFrom s = (.ok a, t))
    (f : α → Act σ β) : runFrom (x >>= f) s = (f a).runFrom t := by
  have h : x s = (.ok a, t) := h
  show (x s >>= fun r => ExceptT.bindCont f r.1 r.2 : Id (Except Fault β × σ)) = _
  rw [h]
  rfl

theorem runFrom_bind_error {β : Type} {x : Act σ α} {s t : σ} {e : Fault}
    (h : x.runFrom s = (.error e, t)) (f : α → Act σ β) : runFrom (x >>= f) s = (.error e, t) := by
  have h : x s = (.error e, t) := h
  show (x s >>= fun r => ExceptT.bindCont f r.1 r.2 : Id (Except Fault β × σ)) = _
  rw [h]
  rfl

theorem runFrom_get_bind {β : Type} (f : σ → Act σ β) (s : σ) :
    runFrom (get >>= f) s = (f s).runFrom s :=
  runFrom_bind rfl f

theorem runFrom_set_bind {β : Type} (t : σ) (f : PUnit → Act σ β) (s : σ) :
    runFrom (set t >>= f) s = (f ⟨⟩).runFrom t :=
  runFrom_bind rfl f

end Act

end GhostText
