/-!
# Delivery — why a frame does not reach a client
-/

namespace OverTheAir

inductive DeliveryError where
  | notConnected
  | sendFailed (code : Int32)
  deriving DecidableEq, Repr

def DeliveryError.message : DeliveryError → String
  | notConnected => "peer not connected"
  | sendFailed code => s!"send failed ({code.toInt})"

end OverTheAir
