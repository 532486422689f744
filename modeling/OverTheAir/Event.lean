import OverTheAir.Client
import OverTheAir.Log

/-!
# Event — what the device tells its surroundings

Every change a surrounding application may care about is an event; `logLine` is the line it leaves
in the log.
-/

namespace OverTheAir

inductive Event where
  | sessionStarted (owner : Client) (totalSize : UInt32)
  | progress (received total : UInt32)
  | completed (totalSize : UInt32)
  | aborted (reason : AbortReason) (received : UInt32)
  | rejected (client : Client) (code : Refusal)
  | actionPerformed (action : Action) (result : Int32)
  deriving DecidableEq, Repr

namespace Event

/-- Full percent of a transfer; an empty one counts as one byte. -/
def percent (received total : UInt32) : Nat := received.toNat * 100 / max total.toNat 1

def logLine : Event → LogLine
  | sessionStarted owner totalSize =>
    ⟨.info, s!"OTA | start | owner={owner.text} size={totalSize.toNat}"⟩
  | progress received total =>
    ⟨.debug, s!"OTA | progress | {received.toNat}/{total.toNat} ({percent received total}%)"⟩
  | completed totalSize => ⟨.info, s!"OTA | done | size={totalSize.toNat}"⟩
  | aborted reason received =>
    ⟨.warn, s!"OTA | abort | reason={reason.text} at={received.toNat}"⟩
  | rejected client code =>
    ⟨.info, s!"OTA | reject | client={client.text} code={code.text}"⟩
  | actionPerformed action result =>
    ⟨.info, s!"OTA | action | {action.name} result={result.toInt}"⟩

end Event

end OverTheAir
