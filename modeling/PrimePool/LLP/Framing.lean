import PrimePool.LLP.Packet

/-!
# Framing

The packets a data thread gets out of a stream of bytes, whatever the portions the bytes arrive in.
-/

namespace PrimePool.LLP

structure Receiver where
  connection : Connection
  delivered : List Packet
deriving DecidableEq

namespace Receiver

def start (stream : Bytes) : Receiver :=
  { connection := { INCOMING := .null, SOCKET := { unread := [], inFlight := stream } }
    delivered := [] }

variable (available : Nat → Nat)

def visit (receiver : Receiver) (arrivals : Arrivals) : Receiver :=
  let (connection, _) := receiver.connection.readPacket available arrivals
  if connection.INCOMING.complete then
    { connection := connection.resetPacket, delivered := receiver.delivered ++ [connection.INCOMING] }
  else { receiver with connection }

def visits (receiver : Receiver) (schedule : List Arrivals) : Receiver :=
  schedule.foldl (visit available) receiver

end Receiver

namespace Packet

def WellFormed (packet : Packet) : Prop :=
  (packet.HEADER < 128 ∧ 1 ≤ packet.DATA.length ∧ packet.DATA.length = packet.LENGTH.toNat) ∨
    (128 ≤ packet.HEADER ∧ packet.HEADER < 255 ∧ packet.LENGTH = 0 ∧ packet.DATA = [])

instance (packet : Packet) : Decidable packet.WellFormed :=
  inferInstanceAs (Decidable (_ ∨ _))

/-- The bytes a packet being built was made of. -/
def bytesRead (packet : Packet) : Bytes :=
  if packet.isNull then [] else if packet.LENGTH = 0 then [packet.HEADER] else packet.getBytes

theorem ne_null_of_lt {HEADER : UInt8} (data : HEADER < 128) : HEADER ≠ 255 := by
  rintro rfl
  exact absurd data (by decide)

theorem not_isNull_of_lt {packet : Packet} (data : packet.HEADER < 128) : packet.isNull = false := by
  simpa [isNull] using ne_null_of_lt data

theorem complete_of_wellFormed {packet : Packet} (wellFormed : packet.WellFormed) : packet.complete = true := by
  rcases wellFormed with ⟨data, positive, sized⟩ | ⟨request, notNull, empty, nothing⟩
  · have length : 0 < packet.LENGTH := by
      rw [UInt32.lt_iff_toNat_lt]
      simp only [UInt32.toNat_zero]
      omega
    simp [complete, header, not_isNull_of_lt data, data, length, sized]
  · have different : packet.HEADER ≠ 255 := by
      intro same
      rw [same] at notNull
      exact absurd notNull (by decide)
    simp [complete, header, isNull, different, request, notNull, empty, nothing]

theorem length_of_complete {packet : Packet} (complete : packet.complete = true) :
    packet.DATA.length = packet.LENGTH.toNat := by
  simp only [Packet.complete, Bool.and_eq_true, decide_eq_true_eq] at complete
  exact complete.2

theorem length_ne_zero_of_complete {packet : Packet} (data : packet.HEADER < 128)
    (complete : packet.complete = true) : packet.LENGTH ≠ 0 := by
  intro zero
  simp [Packet.complete, header, zero, UInt8.not_le.mpr data] at complete

theorem length_data {packet : Packet} (wellFormed : packet.WellFormed) (data : packet.HEADER < 128) :
    packet.DATA.length = packet.LENGTH.toNat := by
  rcases wellFormed with ⟨-, -, sized⟩ | ⟨request, -⟩
  · exact sized
  · exact absurd data (UInt8.not_lt.mpr request)

theorem length_ne_zero {packet : Packet} (wellFormed : packet.WellFormed) (data : packet.HEADER < 128) :
    packet.LENGTH ≠ 0 := by
  rcases wellFormed with ⟨-, positive, sized⟩ | ⟨request, -⟩
  · intro zero
    rw [zero] at sized
    exact absurd sized (Nat.ne_of_gt positive)
  · exact absurd data (UInt8.not_lt.mpr request)

theorem getBytes_data {packet : Packet} (data : packet.HEADER < 128) :
    packet.getBytes = [packet.HEADER] ++ (uint2bytes packet.LENGTH ++ packet.DATA) := by
  rw [getBytes, if_pos data]
  rfl

theorem getBytes_request {packet : Packet} (request : 128 ≤ packet.HEADER) :
    packet.getBytes = [packet.HEADER] := by
  rw [getBytes, if_neg (UInt8.not_lt.mpr request)]

theorem bytesRead_of_wellFormed {packet : Packet} (wellFormed : packet.WellFormed) :
    packet.bytesRead = packet.getBytes := by
  rcases wellFormed with ⟨data, positive, sized⟩ | ⟨request, notNull, empty, -⟩
  · have known := length_ne_zero (Or.inl ⟨data, positive, sized⟩) data
    rw [bytesRead, not_isNull_of_lt data, if_neg Bool.false_ne_true, if_neg known]
  · have started : ¬ packet.isNull = true := by
      intro null
      rw [of_decide_eq_true null] at notNull
      exact absurd notNull (by decide)
    rw [bytesRead, if_neg started, if_pos empty, getBytes_request request]

theorem length_getBytes_pos (packet : Packet) : 0 < packet.getBytes.length := by
  rw [getBytes]
  split
  · exact Nat.succ_pos _
  · exact Nat.succ_pos _

theorem setLength_uint2bytes (packet : Packet) (n : UInt32) :
    packet.setLength (uint2bytes n) = { packet with LENGTH := n } := by
  simp only [setLength]
  congr 1
  exact word_of_bytes n

end Packet

namespace Socket

def stream (socket : Socket) : Bytes := socket.unread ++ socket.inFlight

@[simp] theorem stream_arrive (socket : Socket) (nBytes : Nat) : (socket.arrive nBytes).stream = socket.stream := by
  simp [stream, arrive]

theorem arrive_of_arrived {socket : Socket} (arrived : socket.inFlight = []) (nBytes : Nat) :
    socket.arrive nBytes = socket := by
  cases socket with
  | mk unread inFlight =>
      cases arrived
      simp [arrive]

theorem read_stream (socket : Socket) (part rest : Bytes) (stream : socket.stream = part ++ rest)
    (inside : part.length ≤ socket.unread.length) :
    (socket.read part.length).1 = part ∧ (socket.read part.length).2.stream = rest := by
  have cut : socket.unread.take part.length ++ (socket.unread.drop part.length ++ socket.inFlight) = part ++ rest := by
    rw [← List.append_assoc, List.take_append_drop]
    exact stream
  have taken : (socket.unread.take part.length).length = part.length := by
    rw [List.length_take, Nat.min_eq_left inside]
  exact List.append_inj cut taken

/-- Nothing is added to what the peer has sent, and what has arrived stays so. -/
structure Advances (socket after : Socket) : Prop where
  length : after.stream.length ≤ socket.stream.length
  arrived : socket.inFlight = [] → after.inFlight = []

theorem Advances.trans {socket middle after : Socket} (first : socket.Advances middle)
    (second : middle.Advances after) : socket.Advances after :=
  { length := Nat.le_trans second.length first.length
    arrived := fun arrived => second.arrived (first.arrived arrived) }

theorem advances_arrive (socket : Socket) (nBytes : Nat) : socket.Advances (socket.arrive nBytes) :=
  { length := Nat.le_of_eq (by rw [stream_arrive])
    arrived := fun arrived => by rw [arrive_of_arrived arrived, arrived] }

theorem advances_read (socket : Socket) (nBytes nRead : Nat) :
    socket.Advances ((socket.arrive nBytes).read nRead).2 := by
  refine (socket.advances_arrive nBytes).trans ⟨?_, fun arrived => arrived⟩
  simp [read, stream]

end Socket

/-- The phases of the reader: `packets` are still to be delivered, and the rest of the stream continues the
packet being built. -/
inductive Reading : List Packet → Connection → Prop where
  | idle {packets : List Packet} {SOCKET : Socket} (stream : SOCKET.stream = packets.flatMap Packet.getBytes) :
      Reading packets { INCOMING := .null, SOCKET }
  | header {packet : Packet} {packets : List Packet} {SOCKET : Socket} (data : packet.HEADER < 128)
      (stream : SOCKET.stream = uint2bytes packet.LENGTH ++ (packet.DATA ++ packets.flatMap Packet.getBytes)) :
      Reading (packet :: packets) { INCOMING := { Packet.null with HEADER := packet.HEADER }, SOCKET }
  | data {packet : Packet} {packets : List Packet} {SOCKET : Socket} {got left : Bytes}
      (data : packet.HEADER < 128) (cut : packet.DATA = got ++ left) (missing : left ≠ [])
      (stream : SOCKET.stream = left ++ packets.flatMap Packet.getBytes) :
      Reading (packet :: packets) { INCOMING := { packet with DATA := got }, SOCKET }
  | complete {packet : Packet} {packets : List Packet} {SOCKET : Socket}
      (stream : SOCKET.stream = packets.flatMap Packet.getBytes) :
      Reading (packet :: packets) { INCOMING := packet, SOCKET }

namespace Connection

variable {available : Nat → Nat} {packets : List Packet} {connection : Connection}

theorem eq_mk_of_INCOMING {INCOMING : Packet} (built : connection.INCOMING = INCOMING) :
    connection = { INCOMING, SOCKET := connection.SOCKET } := by
  cases built
  rfl

theorem advances_readHeader (arrived : Nat) (connection : Connection) :
    connection.SOCKET.Advances (connection.readHeader available arrived).SOCKET := by
  simp only [readHeader]
  split
  · split
    · exact connection.SOCKET.advances_read arrived 1
    · exact connection.SOCKET.advances_read arrived 1
  · exact connection.SOCKET.advances_arrive arrived

theorem advances_readLength (arrived : Nat) (connection : Connection) :
    connection.SOCKET.Advances (connection.readLength available arrived).1.SOCKET := by
  simp only [readLength]
  split
  · split
    · exact connection.SOCKET.advances_read arrived 4
    · exact connection.SOCKET.advances_read arrived 4
  · exact connection.SOCKET.advances_arrive arrived

theorem advances_readData (arrived : Nat) (connection : Connection) :
    connection.SOCKET.Advances (connection.readData available arrived).1.SOCKET := by
  simp only [readData]
  split
  · split
    · exact connection.SOCKET.advances_read arrived _
    · exact connection.SOCKET.advances_read arrived _
  · exact connection.SOCKET.advances_arrive arrived

theorem advances_readPacket_of_readHeader (arrivals : Arrivals) (connection : Connection) :
    (connection.readHeader available arrivals.beforeHeader).SOCKET.Advances
      (connection.readPacket available arrivals).1.SOCKET := by
  simp only [readPacket]
  split
  · exact (advances_readLength _ _).trans (advances_readData _ _)
  · exact ⟨Nat.le_refl _, fun arrived => arrived⟩

theorem advances_readPacket (arrivals : Arrivals) (connection : Connection) :
    connection.SOCKET.Advances (connection.readPacket available arrivals).1.SOCKET :=
  (advances_readHeader _ _).trans (advances_readPacket_of_readHeader _ _)

theorem readHeader_of_not_null (arrived : Nat) (started : connection.INCOMING.isNull = false) :
    connection.readHeader available arrived = { connection with SOCKET := connection.SOCKET.arrive arrived } := by
  rw [readHeader, if_neg fun reads => Bool.noConfusion (started.symm.trans reads.2)]

theorem readLength_of_ne_zero (arrived : Nat) (known : connection.INCOMING.LENGTH ≠ 0) :
    connection.readLength available arrived =
      ({ connection with SOCKET := connection.SOCKET.arrive arrived }, []) := by
  rw [readLength, if_neg fun reads => known reads.2]

theorem readData_of_zero (arrived : Nat) (unknown : connection.INCOMING.LENGTH = 0) :
    connection.readData available arrived =
      ({ connection with SOCKET := connection.SOCKET.arrive arrived }, []) := by
  simp only [readData]
  rw [if_neg]
  intro reads
  rw [unknown] at reads
  exact absurd reads.2.1 (by decide)

theorem readData_of_complete (arrived : Nat) (complete : connection.INCOMING.complete = true) :
    connection.readData available arrived =
      ({ connection with SOCKET := connection.SOCKET.arrive arrived }, []) := by
  have sized := Packet.length_of_complete complete
  simp only [readData]
  rw [if_neg]
  rintro ⟨-, -, missing⟩
  omega

theorem readPacket_of_started (arrivals : Arrivals) (started : connection.INCOMING.isNull = false)
    (unfinished : connection.INCOMING.complete = false) :
    (connection.readPacket available arrivals).1 =
      ((readLength available arrivals.beforeLength
        { connection with SOCKET := connection.SOCKET.arrive arrivals.beforeHeader }).1.readData
          available arrivals.beforeData).1 := by
  simp only [readPacket, readHeader_of_not_null _ started]
  rw [if_pos ⟨started, unfinished⟩]

variable (reports : Reports available)

include reports

theorem readHeader_of_empty (arrived : Nat) (nothing : (connection.SOCKET.arrive arrived).unread = []) :
    connection.readHeader available arrived = { connection with SOCKET := connection.SOCKET.arrive arrived } := by
  have none := reports.unread 0
  rw [readHeader, if_neg]
  rintro ⟨some, -⟩
  rw [nothing, List.length_nil] at some
  omega

theorem readHeader_byte {HEADER : UInt8} {rest : Bytes} (connection : Connection) (arrived : Nat)
    (idle : connection.INCOMING.isNull = true)
    (stream : connection.SOCKET.stream = HEADER :: rest) (some : (connection.SOCKET.arrive arrived).unread ≠ []) :
    let after := connection.readHeader available arrived
    after.INCOMING = { connection.INCOMING with HEADER } ∧ after.SOCKET.stream = rest := by
  have positive := List.length_pos_iff.mpr some
  have asked := reports.word (connection.SOCKET.arrive arrived).unread.length
  have read := Socket.read_stream (connection.SOCKET.arrive arrived) [HEADER] rest
    (by rw [Socket.stream_arrive, stream]; rfl) positive
  simp only [readHeader]
  rw [if_pos ⟨by omega, idle⟩]
  simp only [List.length_singleton] at read
  rw [if_pos (by rw [read.1]; rfl)]
  exact ⟨by rw [read.1]; rfl, read.2⟩

theorem readLength_word {nLength : UInt32} {rest : Bytes} (connection : Connection) (arrived : Nat)
    (unknown : connection.INCOMING.LENGTH = 0)
    (stream : connection.SOCKET.stream = uint2bytes nLength ++ rest)
    (some : 4 ≤ (connection.SOCKET.arrive arrived).unread.length) :
    let after := (connection.readLength available arrived).1
    after.INCOMING = { connection.INCOMING with LENGTH := nLength } ∧ after.SOCKET.stream = rest := by
  have asked := reports.word (connection.SOCKET.arrive arrived).unread.length
  have read := Socket.read_stream (connection.SOCKET.arrive arrived) (uint2bytes nLength) rest
    (by rw [Socket.stream_arrive, stream]) some
  simp only [length_uint2bytes] at read
  simp only [readLength]
  rw [if_pos ⟨by omega, unknown⟩, if_pos (by rw [read.1]; rfl)]
  exact ⟨by rw [read.1, Packet.setLength_uint2bytes], read.2⟩

theorem readLength_of_few (arrived : Nat) (few : (connection.SOCKET.arrive arrived).unread.length < 4) :
    connection.readLength available arrived =
      ({ connection with SOCKET := connection.SOCKET.arrive arrived }, []) := by
  have atMost := reports.unread (connection.SOCKET.arrive arrived).unread.length
  rw [readLength, if_neg]
  rintro ⟨enough, -⟩
  omega

theorem readData_of_empty (arrived : Nat) (nothing : (connection.SOCKET.arrive arrived).unread = []) :
    connection.readData available arrived =
      ({ connection with SOCKET := connection.SOCKET.arrive arrived }, []) := by
  have none : available 0 = 0 := Nat.le_zero.mp (reports.unread 0)
  simp only [readData]
  rw [if_neg]
  rintro ⟨some, -⟩
  rw [nothing, List.length_nil, none] at some
  exact absurd some (by decide)

theorem readData_part {left rest : Bytes} (connection : Connection) (arrived : Nat)
    (sized : connection.INCOMING.LENGTH.toNat = connection.INCOMING.DATA.length + left.length)
    (missing : left ≠ []) (stream : connection.SOCKET.stream = left ++ rest)
    (some : (connection.SOCKET.arrive arrived).unread ≠ []) :
    let after := (connection.readData available arrived).1
    ∃ part others, left = part ++ others ∧ part ≠ [] ∧
      after.INCOMING = { connection.INCOMING with DATA := connection.INCOMING.DATA ++ part } ∧
      after.SOCKET.stream = others ++ rest := by
  have positive := List.length_pos_iff.mpr some
  have nonempty := List.length_pos_iff.mpr missing
  have asked := reports.word (connection.SOCKET.arrive arrived).unread.length
  have atMost := reports.unread (connection.SOCKET.arrive arrived).unread.length
  have small := reports.int (connection.SOCKET.arrive arrived).unread.length
  have length := connection.INCOMING.LENGTH.toNat_lt
  let nAvailable := (available (connection.SOCKET.arrive arrived).unread.length).toUInt32
  let nLeft := connection.INCOMING.LENGTH - connection.INCOMING.DATA.length.toUInt32
  have available_eq : nAvailable.toNat = available (connection.SOCKET.arrive arrived).unread.length := by
    simp only [nAvailable, Nat.toUInt32_eq, UInt32.toNat_ofNat']
    omega
  have left_eq : nLeft.toNat = left.length := by
    simp only [nLeft, UInt32.toNat_sub, Nat.toUInt32_eq, UInt32.toNat_ofNat']
    omega
  have bytes_eq : (min nAvailable nLeft).toNat =
      min (available (connection.SOCKET.arrive arrived).unread.length) left.length := by
    rw [UInt32.toNat_min, available_eq, left_eq]
  have taken : (left.take (min nAvailable nLeft).toNat).length = (min nAvailable nLeft).toNat := by
    rw [List.length_take]
    omega
  have read := Socket.read_stream (connection.SOCKET.arrive arrived)
    (left.take (min nAvailable nLeft).toNat) (left.drop (min nAvailable nLeft).toNat ++ rest)
    (by rw [Socket.stream_arrive, stream, ← List.append_assoc, List.take_append_drop]) (by omega)
  rw [taken] at read
  have reads : 0 < nAvailable ∧ 0 < connection.INCOMING.LENGTH ∧
      connection.INCOMING.DATA.length < connection.INCOMING.LENGTH.toNat := by
    simp only [UInt32.lt_iff_toNat_lt, UInt32.toNat_zero]
    omega
  refine ⟨left.take (min nAvailable nLeft).toNat, left.drop (min nAvailable nLeft).toNat,
    (List.take_append_drop _ _).symm, List.length_pos_iff.mp (by omega), ?_⟩
  simp only [readData]
  rw [if_pos reads, if_pos (by rw [read.1, taken])]
  exact ⟨by rw [read.1], read.2⟩

theorem reading_readHeader (wellFormed : ∀ packet ∈ packets, packet.WellFormed) (arrived : Nat)
    (reading : Reading packets connection) (unfinished : connection.INCOMING.complete = false) :
    Reading packets (connection.readHeader available arrived) := by
  cases reading with
  | @idle packets SOCKET stream =>
      by_cases nothing : (SOCKET.arrive arrived).unread = []
      · rw [readHeader_of_empty reports arrived nothing]
        exact .idle (by rw [Socket.stream_arrive, stream])
      · cases packets with
        | nil =>
            rw [← Socket.stream_arrive _ arrived] at stream
            exact absurd (List.append_eq_nil_iff.mp stream).1 nothing
        | cons packet packets =>
            rw [List.flatMap_cons] at stream
            rcases wellFormed packet List.mem_cons_self with ⟨data, -, -⟩ | ⟨request, -, empty, noData⟩
            · rw [Packet.getBytes_data data, List.append_assoc, List.append_assoc] at stream
              have read := readHeader_byte reports ⟨.null, SOCKET⟩ arrived rfl stream nothing
              rw [eq_mk_of_INCOMING read.1]
              exact .header data read.2
            · rw [Packet.getBytes_request request] at stream
              have read := readHeader_byte reports ⟨.null, SOCKET⟩ arrived rfl stream nothing
              have whole : { Packet.null with HEADER := packet.HEADER } = packet := by
                cases packet
                cases empty
                cases noData
                rfl
              rw [eq_mk_of_INCOMING read.1, whole]
              exact .complete read.2
  | header data stream =>
      rw [readHeader_of_not_null arrived (Packet.not_isNull_of_lt data)]
      exact .header data (by rw [Socket.stream_arrive, stream])
  | data data cut missing stream =>
      rw [readHeader_of_not_null arrived (Packet.not_isNull_of_lt data)]
      exact .data data cut missing (by rw [Socket.stream_arrive, stream])
  | complete stream =>
      rw [Packet.complete_of_wellFormed (wellFormed _ List.mem_cons_self)] at unfinished
      cases unfinished

theorem reading_readLength (wellFormed : ∀ packet ∈ packets, packet.WellFormed) (arrived : Nat)
    (reading : Reading packets connection) (unfinished : connection.INCOMING.complete = false)
    (started : connection.INCOMING.isNull = false) :
    Reading packets (connection.readLength available arrived).1 := by
  cases reading with
  | idle stream => cases started
  | @header packet packets SOCKET data stream =>
      rcases wellFormed packet List.mem_cons_self with ⟨-, positive, -⟩ | ⟨request, -⟩
      · by_cases some : 4 ≤ (SOCKET.arrive arrived).unread.length
        · have read := readLength_word reports ⟨{ Packet.null with HEADER := packet.HEADER }, SOCKET⟩ arrived rfl stream some
          rw [eq_mk_of_INCOMING read.1]
          have cut : packet.DATA = [] ++ packet.DATA := rfl
          exact .data data cut (List.length_pos_iff.mp positive) read.2
        · rw [readLength_of_few reports arrived (Nat.lt_of_not_le some)]
          exact .header data (by rw [Socket.stream_arrive, stream])
      · exact absurd data (UInt8.not_lt.mpr request)
  | @data packet packets SOCKET got left data cut missing stream =>
      rw [readLength_of_ne_zero arrived]
      · exact .data data cut missing (by rw [Socket.stream_arrive, stream])
      · have known := Packet.length_ne_zero (wellFormed packet List.mem_cons_self) data
        exact known
  | complete stream =>
      rw [Packet.complete_of_wellFormed (wellFormed _ List.mem_cons_self)] at unfinished
      cases unfinished

theorem reading_readData (wellFormed : ∀ packet ∈ packets, packet.WellFormed) (arrived : Nat)
    (reading : Reading packets connection) :
    Reading packets (connection.readData available arrived).1 := by
  cases reading with
  | idle stream =>
      rw [readData_of_zero arrived rfl]
      exact .idle (by rw [Socket.stream_arrive, stream])
  | header data stream =>
      rw [readData_of_zero arrived rfl]
      exact .header data (by rw [Socket.stream_arrive, stream])
  | @data packet packets SOCKET got left data cut missing stream =>
      by_cases nothing : (SOCKET.arrive arrived).unread = []
      · rw [readData_of_empty reports arrived nothing]
        exact .data data cut missing (by rw [Socket.stream_arrive, stream])
      · have sized := Packet.length_data (wellFormed packet List.mem_cons_self) data
        rw [cut, List.length_append] at sized
        obtain ⟨part, others, split, -, built, rest⟩ :=
          readData_part reports ⟨{ packet with DATA := got }, SOCKET⟩ arrived sized.symm missing stream nothing
        rw [eq_mk_of_INCOMING built]
        cases others with
        | nil =>
            have whole : { packet with DATA := got ++ part } = packet := by
              rw [List.append_nil] at split
              rw [← split, ← cut]
            rw [whole]
            exact .complete rest
        | cons byte others =>
            exact .data data (by rw [cut, split, List.append_assoc]) (List.cons_ne_nil _ _) rest
  | complete stream =>
      have whole := Packet.complete_of_wellFormed (wellFormed _ List.mem_cons_self)
      rw [readData_of_complete arrived whole]
      exact .complete (by rw [Socket.stream_arrive, stream])

theorem reading_readPacket (wellFormed : ∀ packet ∈ packets, packet.WellFormed) (arrivals : Arrivals)
    (reading : Reading packets connection) (unfinished : connection.INCOMING.complete = false) :
    Reading packets (connection.readPacket available arrivals).1 := by
  have header := reading_readHeader reports wellFormed arrivals.beforeHeader reading unfinished
  simp only [readPacket]
  split
  · rename_i going
    have length := reading_readLength reports wellFormed arrivals.beforeLength header going.2 going.1
    exact reading_readData reports wellFormed arrivals.beforeData length
  · exact header

/-- Once all bytes have arrived no visit is idle while there is something to read. -/
theorem stream_readPacket_lt (wellFormed : ∀ packet ∈ packets, packet.WellFormed) (arrivals : Arrivals)
    (reading : Reading packets connection) (unfinished : connection.INCOMING.complete = false)
    (arrived : connection.SOCKET.inFlight = []) (some : connection.SOCKET.stream ≠ []) :
    (connection.readPacket available arrivals).1.SOCKET.stream.length < connection.SOCKET.stream.length := by
  have unread : connection.SOCKET.stream = connection.SOCKET.unread := by
    rw [Socket.stream, arrived, List.append_nil]
  rw [unread] at some
  have same (nBytes : Nat) := Socket.arrive_of_arrived arrived nBytes
  cases reading with
  | @idle packets SOCKET stream =>
      obtain ⟨HEADER, rest, started⟩ := List.exists_cons_of_ne_nil some
      have read := readHeader_byte reports ⟨.null, SOCKET⟩ arrivals.beforeHeader rfl (unread.trans started)
        (by rw [same]; exact some)
      apply Nat.lt_of_le_of_lt (advances_readPacket_of_readHeader arrivals _).length
      rw [read.2, unread, started]
      exact Nat.lt_succ_self _
  | @header packet packets SOCKET data stream =>
      rw [readPacket_of_started arrivals (Packet.not_isNull_of_lt data) unfinished, same]
      have long := congrArg List.length (unread.symm.trans stream)
      simp only [List.length_append, length_uint2bytes] at long
      have read := readLength_word reports ⟨{ Packet.null with HEADER := packet.HEADER }, SOCKET⟩
        arrivals.beforeLength rfl stream (by rw [same]; exact long ▸ Nat.le_add_right _ _)
      apply Nat.lt_of_le_of_lt (advances_readData _ _).length
      rw [read.2, stream]
      simp
  | @data packet packets SOCKET got left data cut missing stream =>
      have known := Packet.length_ne_zero (wellFormed packet List.mem_cons_self) data
      have sized := Packet.length_data (wellFormed packet List.mem_cons_self) data
      rw [cut, List.length_append] at sized
      rw [readPacket_of_started arrivals (Packet.not_isNull_of_lt data) unfinished, same,
        readLength_of_ne_zero arrivals.beforeLength known, same]
      obtain ⟨part, others, split, read, -, rest⟩ :=
        readData_part reports ⟨{ packet with DATA := got }, SOCKET⟩ arrivals.beforeData sized.symm missing stream
          (by rw [same]; exact some)
      rw [rest, stream, split]
      have positive := List.length_pos_iff.mpr read
      simp only [List.length_append]
      omega
  | complete stream =>
      rw [Packet.complete_of_wellFormed (wellFormed _ List.mem_cons_self)] at unfinished
      cases unfinished

end Connection

theorem Reading.bytesRead {packets : List Packet} {connection : Connection}
    (wellFormed : ∀ packet ∈ packets, packet.WellFormed) (reading : Reading packets connection) :
    connection.INCOMING.bytesRead ++ connection.SOCKET.stream = packets.flatMap Packet.getBytes := by
  cases reading with
  | idle stream => exact stream
  | @header packet packets SOCKET data stream =>
      have started : ({ Packet.null with HEADER := packet.HEADER } : Packet).isNull = false :=
        Packet.not_isNull_of_lt data
      rw [Packet.bytesRead, started, stream, List.flatMap_cons, Packet.getBytes_data data]
      simp [Packet.null]
  | @data packet packets SOCKET got left data cut missing stream =>
      have started : ({ packet with DATA := got } : Packet).isNull = false := Packet.not_isNull_of_lt data
      have known := Packet.length_ne_zero (wellFormed packet List.mem_cons_self) data
      have read : ({ packet with DATA := got } : Packet).getBytes =
          [packet.HEADER] ++ (uint2bytes packet.LENGTH ++ got) := Packet.getBytes_data data
      rw [Packet.bytesRead, started, stream, List.flatMap_cons, Packet.getBytes_data data, read, cut]
      simp [known]
  | @complete packet packets SOCKET stream =>
      rw [Packet.bytesRead_of_wellFormed (wellFormed packet List.mem_cons_self), stream, List.flatMap_cons]

theorem Reading.of_complete {packets : List Packet} {connection : Connection}
    (wellFormed : ∀ packet ∈ packets, packet.WellFormed) (reading : Reading packets connection)
    (complete : connection.INCOMING.complete = true) :
    ∃ rest, packets = connection.INCOMING :: rest ∧ connection.SOCKET.stream = rest.flatMap Packet.getBytes := by
  cases reading with
  | idle stream => cases complete
  | @header packet packets SOCKET data stream =>
      have known : ({ Packet.null with HEADER := packet.HEADER } : Packet).LENGTH ≠ 0 :=
        Packet.length_ne_zero_of_complete data complete
      exact absurd rfl known
  | @data packet packets SOCKET got left data cut missing stream =>
      have sized := Packet.length_of_complete complete
      have whole := Packet.length_data (wellFormed packet List.mem_cons_self) data
      rw [cut, List.length_append] at whole
      have positive := List.length_pos_iff.mpr missing
      exact absurd (sized.trans whole.symm) (by simp only; omega)
  | @complete packet rest SOCKET stream => exact ⟨rest, rfl, stream⟩

namespace Receiver

/-- Between two visits: what is delivered, and what the rest of the stream holds. -/
structure InOrder (packets : List Packet) (receiver : Receiver) : Prop where
  unfinished : receiver.connection.INCOMING.complete = false
  reading : ∃ rest, packets = receiver.delivered ++ rest ∧ Reading rest receiver.connection

variable {available : Nat → Nat} {packets : List Packet} {receiver : Receiver}

theorem inOrder_start (packets : List Packet) : InOrder packets (start (packets.flatMap Packet.getBytes)) :=
  { unfinished := rfl
    reading := ⟨packets, rfl, .idle rfl⟩ }

theorem InOrder.visit (reports : Reports available) (wellFormed : ∀ packet ∈ packets, packet.WellFormed)
    (inOrder : InOrder packets receiver) (arrivals : Arrivals) : InOrder packets (receiver.visit available arrivals) := by
  obtain ⟨rest, split, reading⟩ := inOrder.reading
  have restFormed : ∀ packet ∈ rest, packet.WellFormed :=
    fun packet member => wellFormed packet (split ▸ List.mem_append_right _ member)
  have after := Connection.reading_readPacket reports restFormed arrivals reading inOrder.unfinished
  simp only [Receiver.visit]
  split
  · rename_i complete
    obtain ⟨others, first, stream⟩ := after.of_complete restFormed complete
    refine ⟨rfl, others, ?_, .idle stream⟩
    rw [split, first, List.append_assoc]
    rfl
  · rename_i incomplete
    exact ⟨Bool.eq_false_iff.mpr incomplete, rest, split, after⟩

theorem InOrder.visits (reports : Reports available) (wellFormed : ∀ packet ∈ packets, packet.WellFormed)
    (inOrder : InOrder packets receiver) (schedule : List Arrivals) :
    InOrder packets (receiver.visits available schedule) := by
  induction schedule generalizing receiver with
  | nil => exact inOrder
  | cons arrivals schedule ih => exact ih (inOrder.visit reports wellFormed arrivals)

theorem SOCKET_visit (receiver : Receiver) (arrivals : Arrivals) :
    (receiver.visit available arrivals).connection.SOCKET =
      (receiver.connection.readPacket available arrivals).1.SOCKET := by
  simp only [visit]
  split
  · rfl
  · rfl

/-- Nothing is left to read between two visits only behind the last packet. -/
theorem InOrder.finished (wellFormed : ∀ packet ∈ packets, packet.WellFormed) (inOrder : InOrder packets receiver)
    (nothing : receiver.connection.SOCKET.stream = []) :
    receiver = { connection := { INCOMING := .null, SOCKET := { unread := [], inFlight := [] } }, delivered := packets } := by
  obtain ⟨connection, delivered⟩ := receiver
  obtain ⟨rest, split, reading⟩ := inOrder.reading
  have unfinished := inOrder.unfinished
  have restFormed : ∀ packet ∈ rest, packet.WellFormed :=
    fun packet member => wellFormed packet (split ▸ List.mem_append_right _ member)
  cases reading with
  | @idle rest SOCKET stream =>
      obtain ⟨unread, inFlight⟩ := SOCKET
      obtain ⟨rfl, rfl⟩ := List.append_eq_nil_iff.mp nothing
      cases rest with
      | nil =>
          rw [List.append_nil] at split
          rw [split]
      | cons packet rest =>
          have bytes := congrArg List.length (stream.symm.trans nothing)
          have positive := packet.length_getBytes_pos
          simp only [List.flatMap_cons, List.length_append, List.length_nil] at bytes
          omega
  | header data stream =>
      have bytes := congrArg List.length (stream.symm.trans nothing)
      simp at bytes
  | data data cut missing stream =>
      exact absurd (List.append_eq_nil_iff.mp (stream.symm.trans nothing)).1 missing
  | complete stream =>
      rw [Packet.complete_of_wellFormed (restFormed _ List.mem_cons_self)] at unfinished
      cases unfinished

theorem InOrder.visits_finished (reports : Reports available) (wellFormed : ∀ packet ∈ packets, packet.WellFormed)
    (inOrder : InOrder packets receiver) (arrived : receiver.connection.SOCKET.inFlight = [])
    {schedule : List Arrivals} (enough : receiver.connection.SOCKET.stream.length ≤ schedule.length) :
    receiver.visits available schedule =
      { connection := { INCOMING := .null, SOCKET := { unread := [], inFlight := [] } }, delivered := packets } := by
  induction schedule generalizing receiver with
  | nil =>
      rw [List.length_nil, Nat.le_zero, List.length_eq_zero_iff] at enough
      exact inOrder.finished wellFormed enough
  | cons arrivals schedule ih =>
      have after := inOrder.visit reports wellFormed arrivals
      have advances : receiver.connection.SOCKET.Advances (receiver.visit available arrivals).connection.SOCKET := by
        rw [SOCKET_visit]
        exact Connection.advances_readPacket arrivals receiver.connection
      apply ih after (advances.arrived arrived)
      by_cases nothing : receiver.connection.SOCKET.stream = []
      · have length := advances.length
        rw [nothing] at length
        exact Nat.le_trans length (Nat.zero_le _)
      · obtain ⟨rest, split, reading⟩ := inOrder.reading
        have shorter := Connection.stream_readPacket_lt reports
          (fun packet member => wellFormed packet (split ▸ List.mem_append_right _ member))
          arrivals reading inOrder.unfinished arrived nothing
        rw [← SOCKET_visit] at shorter
        rw [List.length_cons] at enough
        omega

/-- Whatever arrives when, the packets are delivered in order, and once all bytes have arrived, all of them
are after as many visits as there are bytes. -/
theorem visits_deliver (reports : Reports available) (packets : List Packet)
    (wellFormed : ∀ packet ∈ packets, packet.WellFormed) (schedule : List Arrivals) :
    let stream := packets.flatMap Packet.getBytes
    let receiver := (start stream).visits available schedule
    receiver.delivered <+: packets ∧
      receiver.delivered.flatMap Packet.getBytes ++ receiver.connection.INCOMING.bytesRead ++
        receiver.connection.SOCKET.stream = stream ∧
      (receiver.connection.SOCKET.inFlight = [] → ∀ further : List Arrivals, stream.length ≤ further.length →
        receiver.visits available further =
          { connection := { INCOMING := .null, SOCKET := { unread := [], inFlight := [] } }, delivered := packets }) := by
  intro stream receiver
  have inOrder : InOrder packets receiver := (inOrder_start packets).visits reports wellFormed schedule
  obtain ⟨rest, split, reading⟩ := inOrder.reading
  have whole := reading.bytesRead fun packet member => wellFormed packet (split ▸ List.mem_append_right _ member)
  have bytes : receiver.delivered.flatMap Packet.getBytes ++ receiver.connection.INCOMING.bytesRead ++
      receiver.connection.SOCKET.stream = stream := by
    rw [List.append_assoc, whole, ← List.flatMap_append, ← split]
  refine ⟨⟨rest, split.symm⟩, bytes, fun arrived further enough => ?_⟩
  have length := congrArg List.length bytes
  simp only [List.length_append] at length
  exact inOrder.visits_finished reports wellFormed arrived (by omega)

theorem reports_int : Reports fun nBytes => min nBytes (2 ^ 31 - 1) where
  unread _ := Nat.min_le_left _ _
  word nBytes := by omega
  int nBytes := by omega

theorem visits_deliver_login :
    let packets : List Packet := [{ HEADER := 0, LENGTH := 2, DATA := [50, 83] }, { HEADER := 129, LENGTH := 0, DATA := [] }]
    let schedule : List Arrivals := [⟨1, 3, 0⟩, ⟨0, 2, 5⟩]
    ((start (packets.flatMap Packet.getBytes)).visits (fun nBytes => min nBytes (2 ^ 31 - 1))
      (schedule ++ List.replicate 8 ⟨0, 0, 0⟩)).delivered = packets := by
  intro packets schedule
  have delivered := (visits_deliver reports_int packets (by decide) schedule).2.2 (by decide)
    (List.replicate 8 ⟨0, 0, 0⟩) (by decide)
  rw [visits, List.foldl_append]
  exact congrArg Receiver.delivered delivered

end Receiver

end PrimePool.LLP
