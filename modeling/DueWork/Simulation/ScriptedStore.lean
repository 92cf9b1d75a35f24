/-
  Stores that a script may change.

  A scripted processor may put a stored instance into any state, past the
  claims and commits of the store, as another service on the same store would.
-/
import DueWork.Store.Database
import DueWork.Store.Memory

namespace DueWork.Simulation

/-- A store whose instances can be put into any state. -/
class ScriptedStore (σ : Type) extends JobStore σ where
  /-- set the state of an instance if it is there -/
  setState (s : σ) (id : Int) (state : State) : σ

instance : ScriptedStore MemoryStore where
  setState s id state := s.updateAt id (fun j => { j with state := state }) fun _ => rfl

instance : ScriptedStore Database where
  setState d id state :=
    match d.setState id state with
    | .ok d => d
    | .error _ => d

end DueWork.Simulation
