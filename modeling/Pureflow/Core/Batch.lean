import Pureflow.Core.Message
import Pureflow.Lib.Grouping

/-!
The batch execution boundary: packets grouped by the port they came in on or go out by.
-/

namespace Pureflow.Core

open Std Pureflow.Types Pureflow.Lib

/-- Input packets grouped by declared input port. -/
structure BatchInputs where
  packetsByPort : ExtTreeMap PortId (List PortPacket)

namespace BatchInputs

def new : BatchInputs := ⟨∅⟩

def push (inputs : BatchInputs) (portId : PortId) (packet : PortPacket) : BatchInputs :=
  ⟨Grouping.push inputs.packetsByPort portId packet⟩

def packets (inputs : BatchInputs) (portId : PortId) : List PortPacket :=
  inputs.packetsByPort[portId]?.getD []

@[simp] lemma packets_new (portId : PortId) : new.packets portId = [] := by
  simp [new, packets]

lemma packets_push (inputs : BatchInputs) (portId p : PortId) (packet : PortPacket) :
    (inputs.push portId packet).packets p =
      inputs.packets p ++ if portId = p then [packet] else [] :=
  Grouping.push_getD inputs.packetsByPort portId p packet

end BatchInputs

/-- Output packets grouped by declared output port. -/
structure BatchOutputs where
  packetsByPort : ExtTreeMap PortId (List PortPacket)

namespace BatchOutputs

def new : BatchOutputs := ⟨∅⟩

def push (outputs : BatchOutputs) (portId : PortId) (packet : PortPacket) : BatchOutputs :=
  ⟨Grouping.push outputs.packetsByPort portId packet⟩

def packets (outputs : BatchOutputs) (portId : PortId) : List PortPacket :=
  outputs.packetsByPort[portId]?.getD []

@[simp] lemma packets_new (portId : PortId) : new.packets portId = [] := by
  simp [new, packets]

lemma packets_push (outputs : BatchOutputs) (portId p : PortId) (packet : PortPacket) :
    (outputs.push portId packet).packets p =
      outputs.packets p ++ if portId = p then [packet] else [] :=
  Grouping.push_getD outputs.packetsByPort portId p packet

end BatchOutputs

end Pureflow.Core
