/-
  What becomes of an instance that was processed.

  A processor answers with an `Outcome`; a call that panics counts as a
  failure and one that takes too long as a retryable one.  A retryable
  failure defers the instance while its retry budget lasts.

  * `Processing.outcome` is the outcome of a call, however it ended;
  * `Outcome.transition` is the change of state that follows, at the wall
    clock `now`, and `Outcome.failure?` the reason if that is a failure.
-/
import DueWork.Job.Instance
import DueWork.Retry.Policy

namespace DueWork

open Time

/-- A processor's answer. -/
inductive Outcome where
  | done (result : Option Json)
  /-- never to be tried again -/
  | failed (reason : String)
  /-- to be tried again, not before a given time or after the usual delay -/
  | retry (reason : String) (notBefore : Option Instant)
deriving DecidableEq, Repr

/-- How a processor call ended. -/
inductive Processing where
  | answered (o : Outcome)
  /-- with a message, if what was thrown was a text -/
  | panicked (message : Option String)
  | timedOut
deriving DecidableEq, Repr

/-- The text of what was thrown. -/
def panicText (message : Option String) : String := message.getD "unknown panic payload"

/-- The outcome of a call that may take `timeout`. -/
def Processing.outcome (timeout : Duration) : Processing → Outcome
  | answered o => o
  | panicked message => .failed ("processor panicked: " ++ panicText message)
  | timedOut => .retry ("processor timed out after " ++ timeout.text) none

/-- One more failure, as far as 32 bits count. -/
def Job.nextFailureCount (j : Job) : UInt32 := Duration.nextCount j.failureCount

namespace Outcome

variable (policy : RetryPolicy)

/-- The reason for which an instance fails for good, if it does. -/
def failure? (j : Job) : Outcome → Option String
  | done _ => none
  | failed reason => some reason
  | retry reason _ => if policy.maxRetries < j.nextFailureCount then some reason else none

/-- The transition of an instance whose processing had this outcome; `jitter`
    is the random part of a delay. -/
def transition (now : Instant) (jitter : UInt64) (j : Job) : Outcome → Transition
  | done result => .done result
  | failed reason => .failed j.nextFailureCount reason
  | retry reason notBefore =>
    if policy.maxRetries < j.nextFailureCount then .failed j.nextFailureCount reason
    else
      let due := notBefore.getD (now.plus (policy.delayFor (j.nextFailureCount - 1) jitter))
      .deferred due j.nextFailureCount reason

end Outcome

end DueWork
