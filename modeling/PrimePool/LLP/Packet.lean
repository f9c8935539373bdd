import PrimePool.Util

/-!
# Packets

`LLP/types.h`: packets, and the reader that builds them from the bytes of a socket.
-/

namespace PrimePool.LLP

/-! ## Packets -/

structure Packet where
  HEADER : UInt8
  LENGTH : UInt32
  DATA : Bytes
deriving DecidableEq

namespace Packet

def null : Packet := { HEADER := 255, LENGTH := 0, DATA := [] }

def isNull (packet : Packet) : Bool := packet.HEADER = 255

def header (packet : Packet) : Bool :=
  if packet.isNull then false
  else (packet.HEADER < 128 && packet.LENGTH > 0) ||
    (packet.HEADER ≥ 128 && packet.HEADER < 255 && packet.LENGTH = 0)

def complete (packet : Packet) : Bool := packet.header && packet.DATA.length = packet.LENGTH.toNat

def setLength (packet : Packet) (BYTES : Bytes) : Packet :=
  { packet with
    LENGTH := ((BYTES.getD 0 0).toUInt32 <<< 24) + ((BYTES.getD 1 0).toUInt32 <<< 16) +
      ((BYTES.getD 2 0).toUInt32 <<< 8) + (BYTES.getD 3 0).toUInt32 }

def getBytes (packet : Packet) : Bytes :=
  if packet.HEADER < 128 then
    [packet.HEADER, (packet.LENGTH >>> 24).toUInt8, (packet.LENGTH >>> 16).toUInt8,
      (packet.LENGTH >>> 8).toUInt8, packet.LENGTH.toUInt8] ++ packet.DATA
  else [packet.HEADER]

end Packet

/-! ## The socket -/

/-- What the peer has sent: the bytes that can be read, and those that have not arrived. -/
structure Socket where
  unread : Bytes
  inFlight : Bytes
deriving DecidableEq

namespace Socket

def arrive (socket : Socket) (nBytes : Nat) : Socket :=
  { unread := socket.unread ++ socket.inFlight.take nBytes
    inFlight := socket.inFlight.drop nBytes }

def read (socket : Socket) (nBytes : Nat) : Bytes × Socket :=
  (socket.unread.take nBytes, { socket with unread := socket.unread.drop nBytes })

end Socket

/-- What a socket library may say of the number of unread bytes. -/
structure Reports (available : Nat → Nat) : Prop where
  unread (nBytes : Nat) : available nBytes ≤ nBytes
  word (nBytes : Nat) : min nBytes 4 ≤ available nBytes
  /-- The system reports the number as an `int`. -/
  int (nBytes : Nat) : available nBytes < 2 ^ 31

/-! ## Reading a packet -/

inductive PacketEvent where
  | EVENT_HEADER
  | EVENT_PACKET (LENGTH : UInt32)
deriving DecidableEq

structure Connection where
  INCOMING : Packet
  SOCKET : Socket
deriving DecidableEq

/-- The bytes that arrive before each of the three times `ReadPacket` asks for `available()`. -/
structure Arrivals where
  beforeHeader : Nat
  beforeLength : Nat
  beforeData : Nat

namespace Connection

def resetPacket (connection : Connection) : Connection := { connection with INCOMING := .null }

variable (available : Nat → Nat)

def readHeader (arrived : Nat) (connection : Connection) : Connection :=
  let SOCKET := connection.SOCKET.arrive arrived
  if 0 < available SOCKET.unread.length ∧ connection.INCOMING.isNull then
    let (HEADER, SOCKET) := SOCKET.read 1
    if HEADER.length = 1 then
      { INCOMING := { connection.INCOMING with HEADER := HEADER.getD 0 255 }, SOCKET }
    else { connection with SOCKET }
  else { connection with SOCKET }

def readLength (arrived : Nat) (connection : Connection) : Connection × List PacketEvent :=
  let SOCKET := connection.SOCKET.arrive arrived
  if 4 ≤ available SOCKET.unread.length ∧ connection.INCOMING.LENGTH = 0 then
    let (BYTES, SOCKET) := SOCKET.read 4
    if BYTES.length = 4 then
      ({ INCOMING := connection.INCOMING.setLength BYTES, SOCKET }, [.EVENT_HEADER])
    else ({ connection with SOCKET }, [])
  else ({ connection with SOCKET }, [])

def readData (arrived : Nat) (connection : Connection) : Connection × List PacketEvent :=
  let SOCKET := connection.SOCKET.arrive arrived
  let INCOMING := connection.INCOMING
  let nAvailable := (available SOCKET.unread.length).toUInt32
  if 0 < nAvailable ∧ 0 < INCOMING.LENGTH ∧ INCOMING.DATA.length < INCOMING.LENGTH.toNat then
    let nBytes := min nAvailable (INCOMING.LENGTH - INCOMING.DATA.length.toUInt32)
    let (DATA, SOCKET) := SOCKET.read nBytes.toNat
    if DATA.length = nBytes.toNat then
      ({ INCOMING := { INCOMING with DATA := INCOMING.DATA ++ DATA }, SOCKET }, [.EVENT_PACKET nBytes])
    else ({ connection with SOCKET }, [])
  else ({ connection with SOCKET }, [])

def readPacket (arrivals : Arrivals) (connection : Connection) : Connection × List PacketEvent :=
  let connection := connection.readHeader available arrivals.beforeHeader
  if connection.INCOMING.isNull = false ∧ connection.INCOMING.complete = false then
    let (connection, header) := connection.readLength available arrivals.beforeLength
    let (connection, packet) := connection.readData available arrivals.beforeData
    (connection, header ++ packet)
  else (connection, [])

end Connection

end PrimePool.LLP
