import AppPilotKit.Adapter.Common
import AppPilotKit.Lib.Table

/-! # The reservation ledger of the Apple adapter

One ledger for the whole process: the ports that launches have reserved, the targets they hold,
and how many connections use each source port. Every operation takes its lock once.
-/

namespace AppPilotKit.Adapter.Apple

structure TargetKey where
  udid : Chars
  appId : Chars
  deriving DecidableEq

structure ReservationLedger where
  ports : Finset Nat := ∅
  sourcePorts : Table Nat := ∅
  targets : Finset TargetKey := ∅

structure AdapterReservation where
  port : Nat
  target : Option TargetKey
  deriving DecidableEq

namespace ReservationLedger

variable (ledger : ReservationLedger)

/-- `SourcePortReservation::new`. -/
def newSource (port : Nat) : Except PlatformFailure Unit × ReservationLedger :=
  if port ∈ ledger.ports then (.error (failure .unavailable), ledger)
  else (.ok (), { ledger with sourcePorts := ledger.sourcePorts.insert port ((ledger.sourcePorts.lookup port).getD 0 + 1) })

/-- `SourcePortReservation::drop`. -/
def dropSource (port : Nat) : ReservationLedger :=
  match ledger.sourcePorts.lookup port with
  | none => ledger
  | some count =>
      if count - 1 = 0 then { ledger with sourcePorts := ledger.sourcePorts.erase port }
      else { ledger with sourcePorts := ledger.sourcePorts.insert port (count - 1) }

/-- `AdapterReservation::release`, of a reservation that was not released yet. -/
def release (reservation : AdapterReservation) : Except PlatformFailure Unit × ReservationLedger :=
  if reservation.port ∈ ledger.ports then
    let ledger := { ledger with ports := ledger.ports.erase reservation.port }
    match reservation.target with
    | none => (.ok (), ledger)
    | some target =>
        if target ∈ ledger.targets then (.ok (), { ledger with targets := ledger.targets.erase target })
        else (.error (failure .cleanupFailed), ledger)
  else (.error (failure .cleanupFailed), ledger)

/-- The locked part of `reserve_dynamic_loopback`: the reservation and whether the target was
    held already, unless the port is in use. -/
def reserve (port : Nat) (target : Option TargetKey) : Option (AdapterReservation × Bool) × ReservationLedger :=
  if port ∈ ledger.ports ∨ (ledger.sourcePorts.lookup port).isSome then (none, ledger)
  else
    let ledger := { ledger with ports := insert port ledger.ports }
    match target with
    | none => (some ({ port, target := none }, false), ledger)
    | some candidate =>
        if candidate ∈ ledger.targets then (some ({ port, target := none }, true), ledger)
        else (some ({ port, target }, false), { ledger with targets := insert candidate ledger.targets })

end ReservationLedger

end AppPilotKit.Adapter.Apple
