import AbsurdSdk.Model.Context

/-! The methods of a context, and handlers as programs over them. A handler may call them in any
order, with handles it has kept, and sees the result of each; `supply` is a value it computes. -/

namespace AbsurdSdk.Model

open Interaction

inductive Method : Type 1
  | step {T : Type} (serde : Serde T) (name : String)
  | beginStep {T : Type} (serde : Serde T) (name : String)
  | completeStep {T : Type} (serde : Serde T) (handle : StepHandle T) (value : T)
  | sleepFor (name : String) (duration : Duration)
  | sleepUntil (name : String) (wakeAt : DateTime)
  | awaitEvent {T : Type} (serde : Serde T) (eventName : String) (options : AwaitEventOptions)
  | awaitTaskResult (taskId : Uuid) (options : AwaitTaskResultOptions)
  | emitEvent {T : Type} (serde : Serde T) (eventName : String) (payload : T)
  | heartbeat
  | heartbeatFor (duration : Duration)
  | supply (T : Type)

namespace Method

abbrev Ans : Method → Type
  | step (T := T) _ _ => T
  | beginStep (T := T) _ _ => StepHandle T
  | completeStep (T := T) _ _ _ => T
  | sleepFor _ _ | sleepUntil _ _ => Unit
  | awaitEvent (T := T) _ _ _ => T
  | awaitTaskResult _ _ => TaskResultSnapshot
  | emitEvent _ _ _ | heartbeat | heartbeatFor _ => Unit
  | supply T => T

def run (chrono : Serde DateTime) (turns : ℕ) : (m : Method) → ContextM m.Ans
  | step serde name => TaskContext.step serde name
  | beginStep serde name => TaskContext.beginStep serde name
  | completeStep serde handle value => TaskContext.completeStep serde handle value
  | sleepFor name duration => TaskContext.sleepFor chrono name duration
  | sleepUntil name wakeAt => TaskContext.sleepUntil chrono name wakeAt
  | awaitEvent serde eventName options => TaskContext.awaitEventWithOptions serde eventName options
  | awaitTaskResult taskId options => TaskContext.awaitTaskResult turns taskId options
  | emitEvent serde eventName payload => TaskContext.emitEvent serde eventName payload
  | heartbeat => TaskContext.heartbeat
  | heartbeatFor duration => TaskContext.heartbeatFor duration
  | supply T => liftM (Async.supply T)

end Method

abbrev MethodHandler (R : Type) := Program Method (fun m => Result m.Ans) R

def MethodHandler.process {R : Type} (chrono : Serde DateTime) (turns : ℕ) :
    MethodHandler R → TaskContext → Process R
  | .done result, _ => .done result
  | .call m next, c => ((m.run chrono turns).run c).bind fun r =>
      MethodHandler.process chrono turns (next r.1) r.2

end AbsurdSdk.Model
