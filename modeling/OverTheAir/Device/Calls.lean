import OverTheAir.Device.State

/-!
# Device/Calls — calls to flash, firmware and clients

A call first meets the faults in store for its point: the first one listed counts down, or strikes
and is used up.  A call that fails this way never reaches the partition or the firmware.
-/

namespace OverTheAir

/-- The mishap that a call at a point meets, and the faults that stay in store. -/
def Fault.draw (p : Point) : List Fault → Option Mishap × List Fault
  | [] => (none, [])
  | f :: fs =>
    if f.point = p then
      match f.skip with
      | 0 => (some f.mishap, fs)
      | n + 1 => (none, { f with skip := n } :: fs)
    else
      let (m, fs) := draw p fs
      (m, f :: fs)

namespace Device

/-- Call the flash.  No result when the caller dies inside the call. -/
def callFlash (d : Device) (actor : Actor) (c : FlashCall) : Option FlashResult × Device :=
  let (mishap, faults) := Fault.draw c.point d.faults
  let d := { d with faults }
  match mishap with
  | some .death => (none, d.note actor (.died c.point))
  | some (.failure e) => (some (.error e), d.note actor (.flash c (.error e)))
  | none =>
    let (r, flash) := d.flash.call c
    (some r, { d with flash }.note actor (.flash c r))

/-- Call the firmware.  No result when the caller dies inside the call. -/
def callFirmware (d : Device) (actor : Actor) (c : FirmwareCall) : Option FlashResult × Device :=
  let (mishap, faults) := Fault.draw c.point d.faults
  let d := { d with faults }
  match mishap with
  | some .death => (none, d.note actor (.died c.point))
  | some (.failure e) => (some (.error e), d.note actor (.firmware c (.error e)))
  | none =>
    let (r, firmware) := d.firmware.call c
    (some r, { d with firmware }.note actor (.firmware c r))

/-- Send a frame to one client.  A client that cannot be reached makes no difference. -/
def send (d : Device) (actor : Actor) (client : Client) (frame : Response) : Device :=
  d.note actor (.sent client frame (!d.unreachable.contains client))

/-- Restart the device; off the device this is only counted. -/
def restart (d : Device) (actor : Actor) : Device :=
  { d with firmware := d.firmware.restart }.note actor .restarted

end Device

end OverTheAir
