import Keymap.FileSystem.Replacement

/-!
# Outcomes of runs

A run on a state ends with a value or an error, and in either case with a state. What a
run ensures is said of both ends at once, so that a failure is followed through the
repairs that come after it. Each way of putting runs together has one rule.
-/

namespace Keymap

/-- A run from a state ends with a value and a state of the one kind, or with an error and
a state of the other. -/
structure Ensures {ε σ α : Type} (action : ExceptT ε (StateM σ) α) (state : σ)
    (ok : α → σ → Prop) (error : ε → σ → Prop) : Prop where
  ok : ∀ a after, action.run.run state = (.ok a, after) → ok a after
  error : ∀ e after, action.run.run state = (.error e, after) → error e after

namespace Ensures

variable {ε ε' α β σ : Type} {state after : σ} {ok : α → σ → Prop} {error : ε → σ → Prop}

section Ends

variable {action : ExceptT ε (StateM σ) α}

/-- A run that ends well ensures what holds of its value and state. -/
theorem of_run_ok {a : α} (hrun : action.run.run state = (.ok a, after)) (h : ok a after) :
    Ensures action state ok error where
  ok a' after' hrun' := by
    cases hrun.symm.trans hrun'
    exact h
  error e after' hrun' := by cases hrun.symm.trans hrun'

/-- A run that fails ensures what holds of its error and state. -/
theorem of_run_error {e : ε} (hrun : action.run.run state = (.error e, after))
    (h : error e after) : Ensures action state ok error where
  ok a after' hrun' := by cases hrun.symm.trans hrun'
  error e' after' hrun' := by
    cases hrun.symm.trans hrun'
    exact h

/-- Runs that end alike ensure the same. -/
theorem of_run_eq {action' : ExceptT ε (StateM σ) α} {start : σ}
    (h : Ensures action' start ok error) (hrun : action.run.run state = action'.run.run start) :
    Ensures action state ok error where
  ok a after hend := h.ok a after (hrun.symm.trans hend)
  error e after hend := h.error e after (hrun.symm.trans hend)

/-- A run ensures what follows from what it ensures. -/
theorem mono {ok' : α → σ → Prop} {error' : ε → σ → Prop} (h : Ensures action state ok error)
    (hok : ∀ a after, ok a after → ok' a after)
    (herror : ∀ e after, error e after → error' e after) : Ensures action state ok' error' where
  ok a after hrun := hok a after (h.ok a after hrun)
  error e after hrun := herror e after (h.error e after hrun)

theorem and {ok' : α → σ → Prop} {error' : ε → σ → Prop} (h : Ensures action state ok error)
    (h' : Ensures action state ok' error') :
    Ensures action state (fun a after => ok a after ∧ ok' a after)
      fun e after => error e after ∧ error' e after where
  ok a after hrun := ⟨h.ok a after hrun, h'.ok a after hrun⟩
  error e after hrun := ⟨h.error e after hrun, h'.error e after hrun⟩

/-- A run ends with what it ends with. -/
theorem run (action : ExceptT ε (StateM σ) α) (state : σ) :
    Ensures action state (fun a after => action.run.run state = (.ok a, after))
      fun e after => action.run.run state = (.error e, after) :=
  ⟨fun _ _ hrun => hrun, fun _ _ hrun => hrun⟩

/-- What is ensured of a run that is known to succeed. -/
theorem of_isOk (h : Ensures action state ok error)
    (hok : (action.run.run state : Except ε α × σ).1.isOk = true) :
    ∃ a, ok a (action.run.run state).2 := by
  rcases hrun : (action.run.run state : Except ε α × σ) with ⟨e | a, after⟩
  · rw [hrun] at hok
    cases hok
  · exact ⟨a, h.ok a after hrun⟩

/-- What is ensured of a run that is known to fail. -/
theorem of_not_isOk (h : Ensures action state ok error)
    (hok : (action.run.run state : Except ε α × σ).1.isOk = false) :
    ∃ e, error e (action.run.run state).2 := by
  rcases hrun : (action.run.run state : Except ε α × σ) with ⟨e | a, after⟩
  · exact ⟨e, h.error e after hrun⟩
  · rw [hrun] at hok
    cases hok

end Ends

theorem pure {a : α} (h : ok a state) :
    Ensures (Pure.pure a : ExceptT ε (StateM σ) α) state ok error := of_run_ok rfl h

theorem throw {e : ε} (h : error e state) :
    Ensures (ExceptT.mk (Pure.pure (.error e)) : ExceptT ε (StateM σ) α) state ok error :=
  of_run_error rfl h

/-- A run of the state alone does not fail. -/
theorem lift {action : StateM σ α} (h : ok (action.run state).1 (action.run state).2) :
    Ensures (liftM action : ExceptT ε (StateM σ) α) state ok error := of_run_ok rfl h

/-- A run with its error wrapped ensures of the wrapped error what holds of it. -/
theorem adapt {action : ExceptT ε (StateM σ) α} {wrap : ε → ε'} {error : ε' → σ → Prop}
    (h : Ensures action state ok fun e after => error (wrap e) after) :
    Ensures (action.adapt wrap) state ok error := by
  have hrun : (action.adapt wrap).run.run state =
      (((action.run.run state).1.mapError wrap, (action.run.run state).2) : Except ε' α × σ) := rfl
  rcases hstart : (action.run.run state : Except ε α × σ) with ⟨e | a, after⟩
  · rw [hstart] at hrun
    exact of_run_error hrun (h.error e after hstart)
  · rw [hstart] at hrun
    exact of_run_ok hrun (h.ok a after hstart)

/-- What comes after a look at the state goes on with it. -/
theorem look {action : StateM σ γ} {next : γ → StateM σ (Except ε α)}
    (h : Ensures (ExceptT.mk (next (action.run state).1)) (action.run state).2 ok error) :
    Ensures (ExceptT.mk (action >>= next)) state ok error := h.of_run_eq rfl

/-- What comes after a run takes up its value or its error. -/
theorem handle {action : ExceptT ε (StateM σ) α} {next : Except ε α → StateM σ (Except ε' β)}
    {ok : β → σ → Prop} {error : ε' → σ → Prop}
    (h : Ensures action state (fun a after => Ensures (ExceptT.mk (next (.ok a))) after ok error)
      fun e after => Ensures (ExceptT.mk (next (.error e))) after ok error) :
    Ensures (ExceptT.mk (action.run >>= next)) state ok error := by
  have hrun : (ExceptT.mk (action.run >>= next)).run.run state =
      (next (action.run.run state).1).run (action.run.run state).2 := rfl
  rcases hstart : (action.run.run state : Except ε α × σ) with ⟨e | a, after⟩
  · rw [hstart] at hrun
    exact (h.error e after hstart).of_run_eq hrun
  · rw [hstart] at hrun
    exact (h.ok a after hstart).of_run_eq hrun

/-- Two runs ensure what the second one ensures wherever the first one ends well. -/
theorem bind {action : ExceptT ε (StateM σ) α} {next : α → ExceptT ε (StateM σ) β}
    {ok : β → σ → Prop}
    (h : Ensures action state (fun a after => Ensures (next a) after ok error) error) :
    Ensures (action >>= next) state ok error := by
  have hbind : action >>= next = ExceptT.mk (action.run >>= ExceptT.bindCont next) := rfl
  rw [hbind]
  exact handle (h.mono (fun _ _ hnext => hnext) fun _ _ herror => throw herror)

/-- A run that succeeds is gone on with where it has ended. -/
theorem of_run_bind {action : ExceptT ε (StateM σ) α} {next : α → ExceptT ε (StateM σ) β}
    {ok : β → σ → Prop} {a : α} (hrun : action.run.run state = (.ok a, after))
    (h : Ensures (next a) after ok error) : Ensures (action >>= next) state ok error :=
  bind (of_run_ok hrun h)

/-- A run that fails is not gone on with. -/
theorem run_bind_error {action : ExceptT ε (StateM σ) α} {next : α → ExceptT ε (StateM σ) β}
    {e : ε} (h : action.run.run state = (.error e, after)) :
    (action >>= next).run.run state = (.error e, after) := by
  have hbind : action >>= next = ExceptT.mk (action.run >>= ExceptT.bindCont next) := rfl
  rw [hbind, ExceptT.run_mk, StateT.run_bind, h]
  rfl

/-- A repair works on the state that the failure has left. -/
theorem onFailure {action : ExceptT ε (StateM σ) α} {repair : StateM σ Unit}
    (h : Ensures action state ok fun e after => error e (repair.run after).2) :
    Ensures (FileSystem.onFailure action repair) state ok error := by
  rw [FileSystem.onFailure]
  refine handle (h.mono (fun _ _ hok => pure hok) fun _ _ herror => look ?_)
  exact throw herror

end Ensures

end Keymap
