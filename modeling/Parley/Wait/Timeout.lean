import Parley.Json.Decoder
import Parley.Text.Natural
/-!
# Timeouts

How long a node waits, as a number of units. A timeout that is not enabled, is zero or is more
seconds than a signed number of 64 bits holds is none at all.
-/
namespace Parley.Wait
open Parley.Text

inductive TimeUnit
  | second
  | minute
  | hour
  | day
deriving DecidableEq

namespace TimeUnit

def named : List (String × TimeUnit) :=
  [("second", .second), ("minute", .minute), ("hour", .hour), ("day", .day)]

def decoder : Decoder TimeUnit := Decoder.variant named

def seconds : TimeUnit → Nat
  | .second => 1
  | .minute => 60
  | .hour => 3600
  | .day => 86400

end TimeUnit

structure Timeout where
  enabled : Bool := false
  interval : Nat := 0
  unit : TimeUnit := .second
deriving DecidableEq

namespace Timeout

def decoder : Decoder Timeout :=
  Parley.Record.decode "TimeoutConfig" <|
    Timeout.mk <$> .withDefault "enabled" .bool false
      <*> .withDefault "interval" (.natural "u64") 0
      <*> .withDefault "unit" TimeUnit.decoder .second

def seconds? (t : Timeout) : Option Nat :=
  if !t.enabled || t.interval == 0 then none
  else
    let total := t.interval * t.unit.seconds
    if total ≤ greatestSigned64 then some total else none

end Timeout

end Parley.Wait
