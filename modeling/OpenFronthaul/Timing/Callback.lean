/-!
# Kinds of callbacks

What a callback on a symbol is for: the deadlines of the control plane, or a moment that an
application asks for by its distance from a symbol.
-/

namespace OpenFronthaul

/-- A moment relative to a symbol that an application can ask for. -/
inductive Moment where
  /-- The symbol itself. -/
  | onAir
  /-- The earliest arrival of received data. -/
  | receiveWindowBegin
  /-- The latest arrival of received data. -/
  | receiveWindowEnd
  /-- The earliest sending of data to transmit. -/
  | transmitWindowBegin
  /-- The latest sending of data to transmit. -/
  | transmitWindowEnd
deriving DecidableEq

/-- The word for a moment in reports. -/
def Moment.name : Moment → String
  | onAir => "Ota"
  | receiveWindowBegin => "RxWinBegin"
  | receiveWindowEnd => "RxWinEnd"
  | transmitWindowBegin => "TxWinBegin"
  | transmitWindowEnd => "TxWinEnd"

/-- What a callback is for. -/
inductive CallbackKind where
  /-- Build the downlink control messages. -/
  | dlControl
  /-- Build the uplink control messages. -/
  | ulControl
  /-- The first half of an uplink slot must have arrived. -/
  | ulHalfArrived
  /-- A whole uplink slot must have arrived. -/
  | ulArrived
  /-- The radio unit sends its uplink data. -/
  | radioUlSend
  /-- The downlink data must have arrived at the radio unit. -/
  | radioDlArrived
  /-- An application asked for the moment. -/
  | user (moment : Moment)
deriving DecidableEq

/-- The kind of work that a callback hands to a worker. -/
inductive JobKind where
  /-- Building downlink control messages. -/
  | dlControl
  /-- Building uplink control messages. -/
  | ulControl
  /-- Handling a reception deadline. -/
  | deadline
  /-- An application callback. -/
  | application
deriving DecidableEq

/-- The place of a kind of work in the list of all kinds. -/
def JobKind.index : JobKind → Nat
  | dlControl => 0
  | ulControl => 1
  | deadline => 2
  | application => 3

end OpenFronthaul
