import GlobalTxn.Protocol.Value
import GlobalTxn.StopSignal

/-! # Answers about stop signals

`drop_watcher` runs steps on one stop signal and answers each step with its result.  Every
step is read with the watcher it names, the first one if it names none, whether it uses a
watcher or not.
-/

namespace GlobalTxn.Protocol

open Member

/-- Runs one step on a stop signal: its result and the signal after it. -/
def stopSignalStep (s : StopSignal) (step : Value) : Decode (Value × StopSignal) := do
  let name ← need step "do" string
  let i ← withDefault step "watcher" word 0
  match name with
  | "watch" =>
    let some (i, s) := s.watch | throw "owner already dropped"
    pure (.nat i, s)
  | "clone" =>
    let some (j, s) := s.copy i | throw "no watcher"
    pure (.nat j, s)
  | "drop_owner" =>
    let (was, s) := s.dropOwner
    pure (.bool was, s)
  | "is_dropped" | "dropped" =>
    let some dropped := s.isDropped i | throw "no watcher"
    pure (.bool dropped, s)
  | other => throw s!"unknown step {other}"

/-- Answers `drop_watcher`. -/
def answerDropWatcher (req : Value) : Decode Value := do
  let steps ← list req "steps"
  let (answers, _) ← steps.foldlM (fun (acc, s) step => do
      let (r, s) ← stopSignalStep s step
      pure (acc ++ [.obj [("result", r)]], s))
    ([], ({} : StopSignal))
  pure <| .obj [("steps", .arr answers)]

end GlobalTxn.Protocol
