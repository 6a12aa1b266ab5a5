import DurableFlow.Machine.Executor

/-!
# A sample application: its host
-/

namespace DurableFlow.Sample

/-- Notes the name of every action, and fails the one that has as many before it as told. -/
def performer (failure : Option (Nat × HostError)) : Performer (List String) := fun _ action names =>
  let outcome := match failure with
    | some (n, e) => if n = names.length then .error e else .ok ()
    | none => .ok ()
  (outcome, names ++ [action.name])

end DurableFlow.Sample
