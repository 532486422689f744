import OverTheAir.Text.Bounded

/-!
# Wifi — the credentials of the network

A network name is 1 to 32 printable ASCII bytes.  A password is empty, for an open network, or 8 to
64 bytes.  The name is looked at first.
-/

namespace OverTheAir

inductive WifiError where
  | noCredentials
  | invalidSsid
  | invalidPassword
  /-- Setting up the driver failed. -/
  | driver (code : Int32)
  | connectionFailed (attempts : UInt8)
  deriving DecidableEq, Repr

def WifiError.message : WifiError → String
  | noCredentials => "no WiFi credentials configured"
  | invalidSsid => "SSID invalid (must be 1-32 printable ASCII bytes)"
  | invalidPassword => "password invalid (must be 8-64 bytes for WPA2, or empty for open)"
  | driver code => s!"WiFi driver error ({code.toInt})"
  | connectionFailed attempts => s!"WiFi connection failed after {attempts.toNat} attempts"

structure WifiCredentials where
  ssid : BoundedText 32
  password : BoundedText 64
  deriving DecidableEq

namespace WifiCredentials

def isPrintable (b : UInt8) : Bool := 0x20 ≤ b.toNat && b.toNat ≤ 0x7E

def ssid? (s : String) : Option (BoundedText 32) :=
  if s.isEmpty || !(Bytes.ofText s).all isPrintable then none else BoundedText.ofString? s

def password? (s : String) : Option (BoundedText 64) :=
  if s.isEmpty || 8 ≤ s.utf8ByteSize then BoundedText.ofString? s else none

def make (ssid password : String) : Except WifiError WifiCredentials :=
  match ssid? ssid with
  | none => .error .invalidSsid
  | some s =>
    match password? password with
    | none => .error .invalidPassword
    | some p => .ok ⟨s, p⟩

/-- The credentials a build was given; without a network name there are none. -/
def ofBuild (ssid password : Option String) : Except WifiError WifiCredentials :=
  match ssid with
  | none => .error .noCredentials
  | some s => make s (password.getD "")

/-- The network takes no password. -/
def isOpen (c : WifiCredentials) : Bool := c.password.text.isEmpty

/-- A printable character between quotes. -/
def quoteChar (c : Char) : String :=
  if c == '"' || c == '\\' then "\\" ++ String.singleton c else String.singleton c

/-- The credentials for a log: the name in quotes, the password left out. -/
def redacted (c : WifiCredentials) : String :=
  "WifiCredentials \x7b ssid: \"" ++ String.join (c.ssid.text.toList.map quoteChar)
    ++ "\", password: \"***\" \x7d"

end WifiCredentials

end OverTheAir
