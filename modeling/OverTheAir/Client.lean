import OverTheAir.Bytes
import OverTheAir.Packet.Code

/-!
# Client — who talks to the device, and who owns the session

A client is a server handle together with a socket.  The registry holds at most one of them: the
owner of the session.
-/

namespace OverTheAir

/-- One connected peer. -/
structure Client where
  handle : UInt64
  socket : Int32
  deriving DecidableEq, Repr

/-- The client as it stands in log lines. -/
def Client.text (c : Client) : String :=
  s!"0x{Bytes.hexDigits c.handle.toNat}/fd{c.socket.toInt}"

/-- Who owns the session. -/
structure Registry where
  owner : Option Client
  deriving DecidableEq, Repr

namespace Registry

/-- Nobody owns a session. -/
def empty : Registry := ⟨none⟩

def isBound (r : Registry) : Bool := r.owner.isSome

/-- Claim ownership; refused while anyone owns the session, the claimant included. -/
def bind (r : Registry) (c : Client) : Except Refusal Registry :=
  if r.isBound then .error .alreadyRunning else .ok ⟨some c⟩

/-- Whether this client is the owner. -/
def verify (r : Registry) (c : Client) : Bool := r.owner == some c

/-- Give up ownership; also tells who had it. -/
def release (r : Registry) : Option Client × Registry := (r.owner, empty)

end Registry

end OverTheAir
