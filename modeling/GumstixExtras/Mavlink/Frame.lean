import GumstixExtras.Mavlink.Relay

/-!
# MAVLink v1 Frames

The frame format of MAVLink v1 as an automaton, for a relay that runs: the generated headers
are not part of the repository. `CRC_EXTRA`, the byte per message type that the checksum also
covers, stays a parameter. `parse_sendBuffer` is the round trip.
-/

namespace GumstixExtras.Mavlink

open GumstixExtras.Lib

/-! ## §1 Messages and their frames -/

/-- The byte every frame starts with. -/
def mavlinkStx : UInt8 := 0xfe

/-- A message. -/
structure Message where
  seq : UInt8
  sysid : UInt8
  compid : UInt8
  msgid : UInt8
  payload : List UInt8
  length_payload : payload.length ≤ 255
  deriving DecidableEq, Repr

/-- One byte into the X.25 checksum. -/
def crcAccumulate (crcAccum : UInt16) (data : UInt8) : UInt16 :=
  let tmp := data ^^^ crcAccum.toUInt8
  let tmp := (tmp ^^^ (tmp <<< 4)).toUInt16
  (crcAccum >>> 8) ^^^ (tmp <<< 8) ^^^ (tmp <<< 3) ^^^ (tmp >>> 4)

/-- What the checksum covers: everything between the start byte and the checksum. -/
def Message.body (m : Message) : List UInt8 :=
  UInt8.ofNat m.payload.length :: m.seq :: m.sysid :: m.compid :: m.msgid :: m.payload

/-- The checksum of a body. -/
def checksum (crcExtra : UInt8 → UInt8) (body : List UInt8) : UInt16 :=
  crcAccumulate (body.foldl crcAccumulate 0xffff) (crcExtra (body.getD 4 0))

/-- The frame of a message. -/
def sendBuffer (crcExtra : UInt8 → UInt8) (m : Message) : List UInt8 :=
  let ck := checksum crcExtra m.body
  mavlinkStx :: (m.body ++ [ck.toUInt8, (ck >>> 8).toUInt8])

/-! ## §2 The parser -/

/-- Between frames, or with the bytes so far of a frame after its start byte. -/
inductive ParseState
  | idle
  | frame (got : List UInt8)
  deriving DecidableEq, Repr

/-- The length of the body, once its first byte is there. -/
def bodyLength : List UInt8 → ℕ
  | [] => 5
  | len :: _ => 5 + len.toNat

/-- The message of a complete body. -/
def decodeBody : List UInt8 → Option Message
  | len :: seq :: sysid :: compid :: msgid :: payload =>
    some ⟨seq, sysid, compid, msgid, payload.take len.toNat,
      Nat.le_trans (List.length_take_le _ _) (Nat.le_of_lt_succ len.toNat_lt)⟩
  | _ => none

/-- Outside a frame, and where a frame breaks off: only a start byte counts. -/
def resync (c : UInt8) : ParseState × Option Message :=
  (if c = mavlinkStx then .frame [] else .idle, none)

/-- One character. Each byte of the checksum is compared as it comes. -/
def parseChar (crcExtra : UInt8 → UInt8) : ParseState → UInt8 → ParseState × Option Message
  | .idle, c => resync c
  | .frame got, c =>
    let body := got.take (bodyLength got)
    let ck := checksum crcExtra body
    -- the body, then the low byte of the checksum, then its high byte
    if got.length < bodyLength got then
      (.frame (got ++ [c]), none)
    else if got.length = bodyLength got then
      if c = ck.toUInt8 then (.frame (got ++ [c]), none) else resync c
    else
      if c = (ck >>> 8).toUInt8 then (.idle, decodeBody body) else resync c

/-- The parser and the frames as a library for the relay. -/
def mavlinkV1 (crcExtra : UInt8 → UInt8) : Library ParseState Message where
  parser := ⟨.idle, parseChar crcExtra⟩
  msgToSendBuffer := sendBuffer crcExtra

/-! ## §3 Round trip -/

variable (crcExtra : UInt8 → UInt8)

theorem bodyLength_body (m : Message) : bodyLength m.body = m.body.length := by
  have hlen : m.payload.length % 2 ^ 8 = m.payload.length :=
    Nat.mod_eq_of_lt (Nat.lt_succ_of_le m.length_payload)
  simp only [bodyLength, Message.body, UInt8.toNat_ofNat', hlen, List.length_cons]
  omega

theorem decodeBody_body (m : Message) : decodeBody m.body = some m := by
  have hlen : m.payload.length % 2 ^ 8 = m.payload.length :=
    Nat.mod_eq_of_lt (Nat.lt_succ_of_le m.length_payload)
  simp only [decodeBody, Message.body, UInt8.toNat_ofNat', hlen, List.take_length]

theorem bodyLength_append {got : List UInt8} (h : got ≠ []) (xs : List UInt8) :
    bodyLength (got ++ xs) = bodyLength got := by
  cases got with
  | nil => exact absurd rfl h
  | cons len got => rfl

/-- Inside a body every byte is taken as it is. -/
theorem parse_body {got xs : List UInt8} (hgot : got ≠ [])
    (h : got.length + xs.length ≤ bodyLength got) :
    (mavlinkV1 crcExtra).parser.after (.frame got) xs = .frame (got ++ xs) ∧
      (mavlinkV1 crcExtra).parser.outputs (.frame got) xs = [] := by
  -- the length of the body is known from its first byte on
  induction xs generalizing got with
  | nil => exact ⟨by rw [List.append_nil]; rfl, rfl⟩
  | cons x xs ih =>
    have hlt : got.length < bodyLength got := by
      rw [List.length_cons] at h
      omega
    have hstep : (mavlinkV1 crcExtra).parser.step (.frame got) x = (.frame (got ++ [x]), none) :=
      if_pos hlt
    have hrest : (got ++ [x]).length + xs.length ≤ bodyLength (got ++ [x]) := by
      rw [bodyLength_append hgot, List.length_append, List.length_singleton]
      rw [List.length_cons] at h
      omega
    -- one byte more is in, and the length is the one announced
    obtain ⟨hafter, houtputs⟩ := ih (by simp) hrest
    rw [Transducer.after, Transducer.outputs, Transducer.next, Transducer.emit, hstep]
    exact ⟨by rw [hafter, List.append_assoc]; rfl, houtputs⟩

/-- The two bytes of the checksum complete the message. -/
theorem parse_checksum (m : Message) :
    let ck := checksum crcExtra m.body
    (mavlinkV1 crcExtra).parser.after (.frame m.body) [ck.toUInt8, (ck >>> 8).toUInt8] = .idle ∧
      (mavlinkV1 crcExtra).parser.outputs (.frame m.body) [ck.toUInt8, (ck >>> 8).toUInt8] =
        [m] := by
  intro ck
  have hbody : bodyLength m.body = m.body.length := bodyLength_body m
  have hlow : parseChar crcExtra (.frame m.body) ck.toUInt8 =
      (.frame (m.body ++ [ck.toUInt8]), none) := by
    simp only [parseChar, hbody, Nat.lt_irrefl, if_true, if_false, List.take_length]
    exact if_pos rfl
  -- the low byte is kept behind the body, and the high byte ends the frame
  have hhigh : parseChar crcExtra (.frame (m.body ++ [ck.toUInt8])) (ck >>> 8).toUInt8 =
      (.idle, some m) := by
    have hlen : bodyLength (m.body ++ [ck.toUInt8]) = m.body.length :=
      (bodyLength_append (List.cons_ne_nil _ _) _).trans hbody
    have htake : (m.body ++ [ck.toUInt8]).take m.body.length = m.body := List.take_left' rfl
    simp only [parseChar, hlen, htake, List.length_append, List.length_singleton,
      decodeBody_body]
    rw [if_neg (by omega), if_neg (by omega)]
    exact if_pos rfl
  refine ⟨?_, ?_⟩
  · simp only [Transducer.after, Transducer.next, mavlinkV1, hlow, hhigh]
  · simp only [Transducer.outputs, Transducer.emit, Transducer.next, mavlinkV1, hlow, hhigh]
    rfl

/-- **Round trip**: between frames, the frame of a message parses to the message and leaves
the parser between frames. -/
theorem parse_sendBuffer (m : Message) :
    (mavlinkV1 crcExtra).parser.after .idle (sendBuffer crcExtra m) = .idle ∧
      (mavlinkV1 crcExtra).parser.outputs .idle (sendBuffer crcExtra m) = [m] := by
  obtain ⟨hafter, houtputs⟩ := parse_checksum crcExtra m
  set ck := checksum crcExtra m.body
  let len := UInt8.ofNat m.payload.length
  let rest := m.seq :: m.sysid :: m.compid :: m.msgid :: m.payload
  -- the start byte and the length, the rest of the body, the checksum
  have hframe : sendBuffer crcExtra m =
      [mavlinkStx, len] ++ (rest ++ [ck.toUInt8, (ck >>> 8).toUInt8]) := rfl
  have hbody : [len].length + rest.length ≤ bodyLength [len] := by
    have hlen := bodyLength_body m
    rw [show m.body = [len] ++ rest from rfl, bodyLength_append (List.cons_ne_nil _ _),
      List.length_append] at hlen
    exact Nat.le_of_eq hlen.symm
  obtain ⟨hafterBody, houtputsBody⟩ := parse_body crcExtra (List.cons_ne_nil _ _) hbody
  have hafterStart : (mavlinkV1 crcExtra).parser.after .idle [mavlinkStx, len] =
      .frame [len] := rfl
  have houtputsStart : (mavlinkV1 crcExtra).parser.outputs .idle [mavlinkStx, len] = [] := rfl
  rw [hframe, Transducer.after_append, Transducer.outputs_append, hafterStart, houtputsStart,
    Transducer.after_append, Transducer.outputs_append, hafterBody, houtputsBody]
  exact ⟨hafter, houtputs⟩

/-! ## §4 Heartbeats -/

/-- `CRC_EXTRA` of the message types up to `HEARTBEAT`. -/
def heartbeatExtra (msgid : UInt8) : UInt8 := if msgid = 0 then 50 else 0

/-- A `HEARTBEAT` of an autopilot or of its ground station. -/
def heartbeat (sysid : UInt8) : Message :=
  ⟨0, sysid, 1, 0, [0, 0, 0, 0, 2, 3, 81, 4, 3], by decide⟩

/-- The frame of a heartbeat. -/
def heartbeatFrame (sysid : UInt8) : List UInt8 := sendBuffer heartbeatExtra (heartbeat sysid)

/-- A run of the relay on bytes from the serial line and datagrams. -/
def heartbeatRun (serialIn : List UInt8) (udpIn : List Received) (schedule : List Actor) :
    Except Fault (State ParseState Message) :=
  run (mavlinkV1 heartbeatExtra) false
    (initial (mavlinkV1 heartbeatExtra) (serialIn.map some) udpIn) schedule

end GumstixExtras.Mavlink
