import SmartFactory.TcpBridge.Frame
import SmartFactory.Lib.Descriptors
import Mathlib.Data.List.FinRange

/-!
# `SmartFactory.TcpBridge.Clients`: the clients of the C bridge

The table `g_clients` of `src/opcua_tcp_bridge.c` and the functions that use it. `Op` is what the
main loop does with the table, in an order that the clients decide: what `accept`, `recv` and
`send` return is a part of the operation.

The system answers for its part: `accept` does not return the descriptor of an open connection,
and `send` does not send more than it was given (`Op.Allowed`).
-/

set_option autoImplicit false

namespace SmartFactory.TcpBridge

open MessagePack (Bytes)

/-- `MAX_CLIENTS`. -/
abbrev maxClients : Nat := 32

/-- `ClientConnection`. -/
structure ClientConnection where
  socket : Int
  active : Bool
  deriving DecidableEq

/-- A call of `send`: the frame and what was returned. -/
structure Send where
  frame : Bytes
  sent : Int
  deriving DecidableEq

/-- The bytes that the connection has taken. -/
def Send.taken (s : Send) : Bytes := s.frame.take s.sent.toNat

/-- `g_clients`, with the connections of the process. -/
structure Clients where
  slots : Fin maxClients → ClientConnection
  net : Descriptors Send

namespace Clients

/-- The table at the start of `main`. -/
def init : Clients := ⟨fun _ => ⟨-1, false⟩, .none⟩

/-- `findFreeClientSlot`. -/
def findFreeClientSlot (c : Clients) : Option (Fin maxClients) :=
  (List.finRange maxClients).find? fun i => !(c.slots i).active

/-- `removeClient`. -/
def removeClient (c : Clients) (index : Fin maxClients) : Clients :=
  if (c.slots index).active then
    { slots := Function.update c.slots index ⟨-1, false⟩
      net := c.net.close (c.slots index).socket }
  else c

/-- `acceptNewClient`. The argument is what `accept` returns. -/
def acceptNewClient (c : Clients) (clientSocket : Int) : Clients :=
  if clientSocket < 0 then c
  else
    match c.findFreeClientSlot with
    | none => { c with net := (c.net.accept clientSocket).close clientSocket }
    | some slot =>
        { slots := Function.update c.slots slot ⟨clientSocket, true⟩
          net := c.net.accept clientSocket }

/-- One turn of the loop of `main` over the clients that are ready. There is no `recvRet` when
`select` has not found the socket ready. -/
def checkClient (c : Clients) (i : Fin maxClients) (recvRet : Option Int) : Clients :=
  if (c.slots i).active then
    match recvRet with
    | none => c
    | some ret => if ret ≤ 0 then c.removeClient i else c
  else c

/-- One turn of the loop of `broadcastFrame`. -/
def sendFrame (c : Clients) (frame : Bytes) (i : Fin maxClients) (sent : Int) : Clients :=
  if (c.slots i).active then
    let c' := { c with net := c.net.write (c.slots i).socket ⟨frame, sent⟩ }
    if sent < 0 ∨ sent.toNat ≠ frame.length then c'.removeClient i else c'
  else c

/-- `broadcastFrame`. -/
def broadcastFrame (c : Clients) (frame : Bytes) (sent : Fin maxClients → Int) : Clients :=
  (List.finRange maxClients).foldl (fun c i => c.sendFrame frame i (sent i)) c

/-- What `main` does with a snapshot. -/
def sendSnapshot (c : Clients) (snapshot : SensorSnapshot) (sent : Fin maxClients → Int) :
    Clients :=
  let frame := encodeFrame snapshot 512
  if 0 < frame.length then c.broadcastFrame frame sent else c

/-- The loop over the clients at the end of `main`. -/
def removeAll (c : Clients) : Clients :=
  (List.finRange maxClients).foldl removeClient c

/-! ### Steps -/

/-- What happens to the table, with what the system returns. -/
inductive Op where
  | accept (clientSocket : Int)
  | check (i : Fin maxClients) (recvRet : Option Int)
  | broadcast (snapshot : SensorSnapshot) (sent : Fin maxClients → Int)
  | shutdown

/-- The system can return this. -/
def Op.Allowed (c : Clients) : Op → Prop
  | .accept clientSocket => c.net.isOpen clientSocket = false
  | .broadcast snapshot sent => ∀ i, sent i ≤ (encodeFrame snapshot 512).length
  | .check _ _ | .shutdown => True

instance (c : Clients) : DecidablePred (Op.Allowed c)
  | .accept clientSocket => inferInstanceAs (Decidable (c.net.isOpen clientSocket = false))
  | .broadcast snapshot sent =>
      inferInstanceAs (Decidable (∀ i, sent i ≤ (encodeFrame snapshot 512).length))
  | .check _ _ | .shutdown => inferInstanceAs (Decidable True)

/-- What an operation does. -/
def apply (c : Clients) : Op → Clients
  | .accept clientSocket => c.acceptNewClient clientSocket
  | .check i recvRet => c.checkClient i recvRet
  | .broadcast snapshot sent => c.sendSnapshot snapshot sent
  | .shutdown => c.removeAll

/-- One operation. -/
def step (c : Clients) (op : Op) : Option Clients :=
  if op.Allowed c then some (c.apply op) else none

end Clients

end SmartFactory.TcpBridge
