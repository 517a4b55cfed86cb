import Keyvisor.Foundation.Stream
import Keyvisor.Runtime

/-!
# Serving one SSH connection

Executable translation of `serve_connection` and `read_packet_length` in
`keyvisor-agent/src/main.rs`. The socket delivers its bytes in chunks; what the
rest of the process does for a connection is an environment that answers whether
the timeouts could be set, whether a request could be monitored, what `handle`
returned for it and whether a response could be written.

Every stream has one reading as complete frames followed by a tail, and with a
cooperative environment the connection answers the frames one by one and then
judges the tail.
-/

namespace Keyvisor.Connection

open Foundation Foundation.Stream Foundation.Reader Protocol Keyvisor.Runtime

/-- Everything a connection meets apart from the bytes it receives. -/
structure Environment where
  setReadTimeout : Except IoError Unit
  setWriteTimeout : Except IoError Unit
  monitor : Nat → Except String Unit
  handle : Nat → Bytes → Except String Bytes
  write : Nat → Except IoError Unit

/-- A one-byte read tells the end of the stream from the start of a length field.
It never returns more than the one byte. -/
def readPacketLength (source : Source) : Except String (Option Nat × Source) :=
  match source.read 1 with
  | .error error => .error ("cannot read SSH agent packet length: " ++ error.text)
  | .ok ([], after) => .ok (none, after)
  | .ok (first :: _, after) =>
    match after.readExact 3 with
    | .error error => .error ("cannot read SSH agent packet length: " ++ error.text)
    | .ok (rest, after) => .ok (some (BigEndian.value (first :: rest)), after)

/-- The response to a request: its answer, or the failure frame. -/
def respond : Except String Bytes → Bytes
  | .ok bytes => bytes
  | .error _ => failureResponse

/-- The responses written, in order, and how the connection ended. -/
structure Served where
  written : List Bytes
  result : Except String Unit
  deriving DecidableEq

/-- The ignored write before a refused length. -/
def attempted (environment : Environment) (index : Nat) (response : Bytes) : List Bytes :=
  match environment.write index with
  | .ok _ => [response]
  | .error _ => []

/-- One turn of the loop: a request to answer with the rest of the stream, or the
end of the connection. -/
inductive Turn where
  | stopped (served : Served)
  | received (packet : Bytes) (rest : Source)

/-- Reading one packet. -/
def receive (environment : Environment) (index : Nat) (source : Source) : Turn :=
  match readPacketLength source with
  | .error message => .stopped ⟨[], .error message⟩
  | .ok (none, _) => .stopped ⟨[], .ok ()⟩
  | .ok (some length, after) =>
    if length = 0 ∨ maxPacketLength < length then
      .stopped ⟨attempted environment index failureResponse, .error "invalid SSH agent packet length"⟩
    else
      match after.readExact length with
      | .error error => .stopped ⟨[], .error ("cannot read SSH agent packet: " ++ error.text)⟩
      | .ok (packet, rest) => .received packet rest

/-- A received packet was part of the stream. -/
theorem receive_shorter {environment : Environment} {index : Nat} {source rest : Source} {packet : Bytes}
    (received : receive environment index source = .received packet rest) :
    rest.remaining.length < source.remaining.length := by
  unfold receive at received
  split at received
  · cases received
  · cases received
  · rename_i length after announced
    split at received
    · cases received
    · split at received
      · cases received
      · rename_i body last filled
        cases received
        have bodySplit := Source.readExact_split filled
        unfold readPacketLength at announced
        split at announced
        · cases announced
        · cases announced
        · rename_i first tail middle reads
          split at announced
          · cases announced
          · rename_i field _ fills
            cases announced
            have firstSplit := Source.read_split reads
            have fieldSplit := Source.readExact_split fills
            rw [firstSplit, fieldSplit, bodySplit]
            simp only [List.length_append, List.length_cons]
            omega

/-- The loop of `serve_connection`. Each turn consumes bytes of the stream. -/
def serveFrom (environment : Environment) (index : Nat) (source : Source) : Served :=
  match _turn : receive environment index source with
  | .stopped served => served
  | .received packet rest =>
    match environment.monitor index with
    | .error message => ⟨[], .error message⟩
    | .ok _ =>
      let response := respond (environment.handle index packet)
      match environment.write index with
      | .error error => ⟨[], .error ("cannot write SSH agent response: " ++ error.text)⟩
      | .ok _ =>
        let later := serveFrom environment (index + 1) rest
        ⟨response :: later.written, later.result⟩
termination_by source.remaining.length
decreasing_by exact receive_shorter _turn

/-- `serve_connection` on a stream of packets. -/
def serveConnection (environment : Environment) (source : Source) : Served :=
  match environment.setReadTimeout with
  | .error error => ⟨[], .error ("cannot set read timeout: " ++ error.text)⟩
  | .ok _ =>
    match environment.setWriteTimeout with
    | .error error => ⟨[], .error ("cannot set write timeout: " ++ error.text)⟩
    | .ok _ => serveFrom environment 0 source

/-! ## Frames and tails -/

/-- A payload whose length the connection accepts. -/
structure Payload where
  bytes : Bytes
  positive : 0 < bytes.length
  bounded : bytes.length ≤ maxPacketLength
  deriving DecidableEq

/-- The number that a length field at the start of the bytes announces. -/
def announced (bytes : Bytes) : Nat := BigEndian.value (bytes.take 4)

/-- What a stream may hold after its packets. -/
inductive Tail where
  | finished
  | incomplete
  | invalid
  deriving DecidableEq, Repr

/-- Nothing; a cut length field or a cut payload; or a length field that announces
nothing or too much. -/
def Tail.Describes : Tail → Bytes → Prop
  | finished, bytes => bytes = []
  | incomplete, bytes => bytes ≠ [] ∧ (bytes.length < 4 ∨
      (0 < announced bytes ∧ announced bytes ≤ maxPacketLength ∧ bytes.length < 4 + announced bytes))
  | invalid, bytes => 4 ≤ bytes.length ∧ (announced bytes = 0 ∨ maxPacketLength < announced bytes)

/-- A stream read as complete frames followed by a tail. -/
structure Splits (stream : Bytes) (frames : List Payload) (kind : Tail) (tail : Bytes) : Prop where
  joined : stream = frames.flatMap (fun payload => field payload.bytes) ++ tail
  described : kind.Describes tail

/-- The length of a packet fits its header. -/
theorem Payload.length_lt (payload : Payload) : payload.bytes.length < 2 ^ 32 := by
  have bounded := payload.bounded
  simp only [maxPacketLength] at bounded
  omega

/-- A frame announces its payload's length. -/
theorem announced_field (payload : Payload) (rest : Bytes) :
    announced (field payload.bytes ++ rest) = payload.bytes.length := by
  have fits : payload.bytes.length < 256 ^ 4 := payload.length_lt
  have prefixed : (field payload.bytes ++ rest).take 4 = BigEndian.encode 4 payload.bytes.length := by
    rw [field, List.append_assoc]
    exact List.take_left' (BigEndian.length_encode _ _)
  rw [announced, prefixed, BigEndian.value_encode_of_lt _ _ fits]

/-- No tail starts with a complete frame. -/
theorem not_describes_frame (kind : Tail) (payload : Payload) (rest : Bytes) :
    ¬ kind.Describes (field payload.bytes ++ rest) := by
  have counted := announced_field payload rest
  have size : (field payload.bytes ++ rest).length = 4 + payload.bytes.length + rest.length := by
    simp only [field, List.length_append, BigEndian.length_encode]
  have positive := payload.positive
  have bounded := payload.bounded
  cases kind with
  | finished =>
    intro empty
    rw [show field payload.bytes ++ rest = [] from empty, List.length_nil] at size
    omega
  | incomplete =>
    rintro ⟨_, cut | ⟨_, _, cut⟩⟩
    · omega
    · omega
  | invalid =>
    rintro ⟨_, zero | large⟩
    · omega
    · omega

/-- A tail has one kind. -/
theorem describes_unique {left right : Tail} {bytes : Bytes} (leftKind : left.Describes bytes)
    (rightKind : right.Describes bytes) : left = right := by
  cases left <;> cases right <;> simp only [Tail.Describes] at leftKind rightKind <;>
    first
      | rfl
      | (subst leftKind; simp at rightKind)
      | (subst rightKind; simp at leftKind)
      | omega

/-- Every stream starts with a complete frame or is a tail. -/
theorem frame_or_tail (stream : Bytes) :
    (∃ (payload : Payload) (rest : Bytes), stream = field payload.bytes ++ rest) ∨
      ∃ kind : Tail, kind.Describes stream := by
  by_cases empty : stream = []
  · exact .inr ⟨.finished, empty⟩
  by_cases cut : stream.length < 4
  · exact .inr ⟨.incomplete, empty, .inl cut⟩
  by_cases refused : announced stream = 0 ∨ maxPacketLength < announced stream
  · exact .inr ⟨.invalid, by omega, refused⟩
  by_cases short : stream.length < 4 + announced stream
  · exact .inr ⟨.incomplete, empty, .inr ⟨by omega, by omega, short⟩⟩
  refine .inl ⟨⟨(stream.drop 4).take (announced stream), ?_, ?_⟩, (stream.drop 4).drop (announced stream), ?_⟩
  · simp only [List.length_take, List.length_drop]
    omega
  · simp only [List.length_take, List.length_drop]
    omega
  · have size : ((stream.drop 4).take (announced stream)).length = announced stream := by
      simp only [List.length_take, List.length_drop]
      omega
    have prefixed : BigEndian.encode 4 (announced stream) = stream.take 4 := by
      have width : (stream.take 4).length = 4 := by
        simp only [List.length_take]
        omega
      have recovered := BigEndian.encode_value (stream.take 4)
      rwa [width] at recovered
    simp only [field, size, prefixed]
    rw [List.append_assoc, List.take_append_drop, List.take_append_drop]

/-- Every stream has a reading as frames and a tail. -/
theorem exists_splits (stream : Bytes) : ∃ frames kind tail, Splits stream frames kind tail := by
  induction size : stream.length using Nat.strong_induction_on generalizing stream with
  | _ bound inductionHypothesis =>
    rcases frame_or_tail stream with ⟨payload, rest, rfl⟩ | ⟨kind, described⟩
    · have shorter : rest.length < bound := by
        subst size
        simp only [field, List.length_append, BigEndian.length_encode]
        omega
      obtain ⟨frames, kind, tail, joined, described⟩ := inductionHypothesis rest.length shorter rest rfl
      exact ⟨payload :: frames, kind, tail, by rw [joined]; simp, described⟩
    · exact ⟨[], kind, stream, by simp, described⟩

/-- The reading is unique: the leading frame is determined by its length field, and
no tail starts with a frame. -/
theorem splits_unique {stream : Bytes} {frames others : List Payload} {kind otherKind : Tail}
    {tail otherTail : Bytes} (left : Splits stream frames kind tail)
    (right : Splits stream others otherKind otherTail) :
    frames = others ∧ kind = otherKind ∧ tail = otherTail := by
  induction frames generalizing stream others with
  | nil =>
    obtain ⟨rfl, described⟩ := left
    cases others with
    | nil =>
      obtain ⟨same, otherDescribed⟩ := right
      simp only [List.flatMap_nil, List.nil_append] at same
      subst same
      exact ⟨rfl, describes_unique described otherDescribed, rfl⟩
    | cons payload rest =>
      obtain ⟨same, _⟩ := right
      simp only [List.flatMap_cons, List.append_assoc] at same
      rw [same] at described
      exact absurd described (not_describes_frame kind payload _)
  | cons payload rest inductionHypothesis =>
    obtain ⟨rfl, described⟩ := left
    obtain ⟨same, otherDescribed⟩ := right
    cases others with
    | nil =>
      simp only [List.flatMap_nil, List.nil_append, List.flatMap_cons, List.append_assoc] at same
      rw [← same] at otherDescribed
      exact absurd otherDescribed (not_describes_frame otherKind payload _)
    | cons other later =>
      simp only [List.flatMap_cons, List.append_assoc] at same
      obtain ⟨samePayload, sameRest⟩ := field_append_inj payload.length_lt other.length_lt same
      obtain ⟨sameFrames, sameKind, sameTail⟩ :=
        inductionHypothesis ⟨rfl, described⟩ ⟨sameRest, otherDescribed⟩
      refine ⟨?_, sameKind, sameTail⟩
      cases payload
      cases other
      simp_all

/-! ## Reading one packet of a regular stream -/

section

variable {source : Source} (regular : source.ending = none)

include regular

/-- At the end of the stream there is no length. -/
theorem readPacketLength_end (finished : source.remaining = []) :
    readPacketLength source = .ok (none, source) := by
  simp only [readPacketLength, Source.read_end 1 source finished regular]

/-- The one-byte read takes the first byte that remains. -/
theorem read_first (more : source.remaining ≠ []) :
    ∃ first after, source.read 1 = .ok ([first], after) ∧ source.remaining = first :: after.remaining ∧
      after.ending = none := by
  obtain ⟨bytes, after, reads, nonempty, short, split, kept⟩ := Source.read_spec Nat.one_pos source more
  obtain ⟨first, rfl⟩ : ∃ first, bytes = [first] := by
    have positive := List.length_pos_iff.mpr nonempty
    exact List.length_eq_one_iff.mp (by omega)
  exact ⟨first, after, reads, split, kept.trans regular⟩

/-- A stream that ends inside the length field is an error. -/
theorem readPacketLength_cut (more : source.remaining ≠ []) (cut : source.remaining.length < 4) :
    readPacketLength source = .error ("cannot read SSH agent packet length: " ++ IoError.unfilled.text) := by
  obtain ⟨first, after, reads, split, kept⟩ := read_first regular more
  have short : after.remaining.length < 3 := by
    rw [split, List.length_cons] at cut
    omega
  have fails : after.readExact 3 = .error .unfilled :=
    fill_short (Source.delivers none) Source.finishes 3 after kept short
  simp only [readPacketLength, reads, fails]

/-- A whole length field is read as the number it announces. -/
theorem readPacketLength_field (enough : 4 ≤ source.remaining.length) :
    ∃ after, readPacketLength source = .ok (some (announced source.remaining), after) ∧
      after.remaining = source.remaining.drop 4 ∧ after.ending = none := by
  have more : source.remaining ≠ [] := by
    intro empty
    rw [empty] at enough
    contradiction
  obtain ⟨first, middle, reads, split, kept⟩ := read_first regular more
  have left : 3 ≤ middle.remaining.length := by
    rw [split, List.length_cons] at enough
    omega
  obtain ⟨after, fills, rest, final⟩ := fill_enough (Source.delivers none) 3 middle kept left
  refine ⟨after, ?_, ?_, final⟩
  · have exact : middle.readExact 3 = .ok (middle.remaining.take 3, after) := fills
    simp only [readPacketLength, reads, exact, announced, split, List.take_succ_cons]
  · rw [rest, split, List.drop_succ_cons]

/-- A complete frame is received as its payload, and the rest of the stream is left. -/
theorem receive_frame (environment : Environment) (index : Nat) {payload : Payload} {rest : Bytes}
    (framed : source.remaining = field payload.bytes ++ rest) :
    ∃ after, receive environment index source = .received payload.bytes after ∧ after.remaining = rest ∧
      after.ending = none := by
  have size : source.remaining.length = 4 + payload.bytes.length + rest.length := by
    simp only [framed, field, List.length_append, BigEndian.length_encode]
  obtain ⟨middle, reads, dropped, kept⟩ := readPacketLength_field regular (by omega)
  have body : middle.remaining = payload.bytes ++ rest := by
    rw [dropped, framed, field, List.append_assoc]
    exact List.drop_left' (BigEndian.length_encode _ _)
  have counted : announced source.remaining = payload.bytes.length := by
    rw [framed, announced_field]
  have accepted : ¬ (payload.bytes.length = 0 ∨ maxPacketLength < payload.bytes.length) := by
    have positive := payload.positive
    have bounded := payload.bounded
    omega
  obtain ⟨after, fills, left, final⟩ :=
    fill_enough (Source.delivers none) payload.bytes.length middle kept (by simp [body])
  rw [body, List.drop_left] at left
  rw [body, List.take_left] at fills
  have exact : middle.readExact payload.bytes.length = .ok (payload.bytes, after) := fills
  exact ⟨after, by simp only [receive, reads, counted, if_neg accepted, exact], left, final⟩

end

/-! ## The whole connection -/

/-- What may come back for each request: the results of runs of `handle`, each with
its own answers from the rest of the process and from the cancellation monitor. -/
structure Outcomes (settings : Settings) where
  result : Nat → Bytes → Except String Bytes
  possible : ∀ index packet, ∃ transcript,
    Program.Follows (handle settings packet).run transcript (.done (result index packet))

/-- Timeouts are set, monitors start and writes succeed. -/
def cooperative {settings : Settings} (outcomes : Outcomes settings) : Environment where
  setReadTimeout := .ok ()
  setWriteTimeout := .ok ()
  monitor _ := .ok ()
  handle := outcomes.result
  write _ := .ok ()

/-- How a connection ends after its frames, by the kind of the tail. -/
def Tail.Ends : Tail → Served → Prop
  | finished, served => served = ⟨[], .ok ()⟩
  | incomplete, served => ∃ message, served = ⟨[], .error message⟩
  | invalid, served => ∃ message, served = ⟨[failureResponse], .error message⟩

section

variable {settings : Settings} (outcomes : Outcomes settings)

/-- The responses to the frames, the first of them having the given index. -/
def responses (index : Nat) (frames : List Payload) : List Bytes :=
  frames.mapIdx fun offset payload => respond (outcomes.result (index + offset) payload.bytes)

/-- A tail stops the connection in the way of its kind. -/
theorem receive_tail (index : Nat) {source : Source} (regular : source.ending = none) {kind : Tail}
    (described : kind.Describes source.remaining) :
    ∃ ending, kind.Ends ending ∧ receive (cooperative outcomes) index source = .stopped ending := by
  cases kind with
  | finished =>
    refine ⟨⟨[], .ok ()⟩, rfl, ?_⟩
    simp only [receive, readPacketLength_end regular described]
  | incomplete =>
    obtain ⟨more, cut⟩ := described
    by_cases narrow : source.remaining.length < 4
    · refine ⟨⟨[], .error ("cannot read SSH agent packet length: " ++ IoError.unfilled.text)⟩, ⟨_, rfl⟩, ?_⟩
      simp only [receive, readPacketLength_cut regular more narrow]
    · obtain ⟨after, reads, dropped, kept⟩ := readPacketLength_field regular (Nat.not_lt.mp narrow)
      have short : after.remaining.length < announced source.remaining := by
        rw [dropped, List.length_drop]
        omega
      have fails : after.readExact (announced source.remaining) = .error .unfilled :=
        fill_short (Source.delivers none) Source.finishes _ after kept short
      have accepted : ¬ (announced source.remaining = 0 ∨ maxPacketLength < announced source.remaining) := by
        omega
      refine ⟨⟨[], .error ("cannot read SSH agent packet: " ++ IoError.unfilled.text)⟩, ⟨_, rfl⟩, ?_⟩
      simp only [receive, reads, if_neg accepted, fails]
  | invalid =>
    obtain ⟨enough, refused⟩ := described
    obtain ⟨after, reads, _, _⟩ := readPacketLength_field regular enough
    refine ⟨⟨[failureResponse], .error "invalid SSH agent packet length"⟩, ⟨_, rfl⟩, ?_⟩
    simp only [receive, reads, if_pos refused]
    rfl

/-- From any point on, the frames are answered in order and the tail is judged. The
induction is on the frames that are still to come. -/
theorem serveFrom_spec (index : Nat) {source : Source} (regular : source.ending = none)
    {frames : List Payload} {kind : Tail} {tail : Bytes} (splits : Splits source.remaining frames kind tail) :
    ∃ ending, kind.Ends ending ∧ serveFrom (cooperative outcomes) index source =
      ⟨responses outcomes index frames ++ ending.written, ending.result⟩ := by
  induction frames generalizing index source with
  | nil =>
    obtain ⟨joined, described⟩ := splits
    simp only [List.flatMap_nil, List.nil_append] at joined
    rw [← joined] at described
    obtain ⟨ending, ends, stops⟩ := receive_tail outcomes index regular described
    refine ⟨ending, ends, ?_⟩
    rw [serveFrom]
    split
    · rename_i served stopped
      rw [stops] at stopped
      cases stopped
      simp [responses]
    · rename_i received
      rw [stops] at received
      cases received
  | cons payload rest inductionHypothesis =>
    obtain ⟨joined, described⟩ := splits
    rw [List.flatMap_cons, List.append_assoc] at joined
    obtain ⟨after, receives, left, kept⟩ := receive_frame regular (cooperative outcomes) index joined
    obtain ⟨ending, ends, serves⟩ := inductionHypothesis (index + 1) kept ⟨left, described⟩
    refine ⟨ending, ends, ?_⟩
    rw [serveFrom]
    split
    · rename_i stopped
      rw [receives] at stopped
      cases stopped
    · rename_i received
      rw [receives] at received
      cases received
      simp only [cooperative] at serves ⊢
      simp only [serves, responses, List.mapIdx_cons, List.cons_append, Nat.add_zero,
        Nat.add_assoc, Nat.add_comm 1]

/-- What is written for a request is a frame of type 5, 12 or 14. -/
theorem framed_respond (index : Nat) (packet : Bytes) :
    Framed sshAgentFailure (respond (outcomes.result index packet)) ∨
      Framed ssh2AgentIdentitiesAnswer (respond (outcomes.result index packet)) ∨
      Framed ssh2AgentSignResponse (respond (outcomes.result index packet)) := by
  obtain ⟨transcript, follows⟩ := outcomes.possible index packet
  obtain ⟨_, _, answered⟩ := (handle_complies settings packet).of_follows_done follows
  cases result : outcomes.result index packet with
  | error message => exact .inl framed_failureResponse
  | ok bytes => exact .inr (answered bytes result)

end

/-- A connection whose stream ends regularly, in any chunks, answers each complete
frame in order with what `handle` returned for it or with the failure frame, and
then ends as its tail, which is unique, demands. Whatever it writes is a frame. -/
theorem connection_framing (settings : Settings) (outcomes : Outcomes settings) (source : Source)
    (regular : source.ending = none) :
    ∃ frames kind tail, Splits source.remaining frames kind tail ∧
      (∀ others otherKind otherTail, Splits source.remaining others otherKind otherTail →
        others = frames ∧ otherKind = kind ∧ otherTail = tail) ∧
      (∃ ending, kind.Ends ending ∧ serveConnection (cooperative outcomes) source =
        ⟨frames.mapIdx (fun index payload => respond (outcomes.result index payload.bytes)) ++ ending.written,
          ending.result⟩) ∧
      ∀ response ∈ (serveConnection (cooperative outcomes) source).written,
        Framed 5 response ∨ Framed 12 response ∨ Framed 14 response := by
  obtain ⟨frames, kind, tail, splits⟩ := exists_splits source.remaining
  obtain ⟨ending, ends, serves⟩ := serveFrom_spec outcomes 0 regular splits
  have served : serveConnection (cooperative outcomes) source =
      ⟨responses outcomes 0 frames ++ ending.written, ending.result⟩ := serves
  refine ⟨frames, kind, tail, splits, fun _ _ _ other => splits_unique other splits, ⟨ending, ends, ?_⟩, ?_⟩
  · rw [served]
    simp only [responses, Nat.zero_add]
  · intro response member
    rw [served] at member
    rcases List.mem_append.mp member with answer | last
    · obtain ⟨index, _, rfl⟩ := List.mem_mapIdx.mp answer
      exact framed_respond outcomes _ _
    · cases kind with
      | finished =>
        subst ends
        cases last
      | incomplete =>
        obtain ⟨_, rfl⟩ := ends
        cases last
      | invalid =>
        obtain ⟨_, rfl⟩ := ends
        rw [List.mem_singleton] at last
        subst last
        exact .inl framed_failureResponse

/-- A client that is gone before its requests are looked at. -/
def disconnected (settings : Settings) : Outcomes settings where
  result _ _ := .error "SSH client disconnected"
  possible _ _ := ⟨[⟨.cancelled, true⟩], (Program.follow_eq_some _ _ _).mp rfl⟩

/-- A request for the identities, cut inside its length field, and then a length
field that announces nothing. -/
def interrupted : Source := ⟨[[0, 0], [0, 1, 11, 0], [0, 0, 0]], none, by decide⟩

/-- The interrupted stream is one packet and then a length field that announces nothing. -/
theorem interrupted_splits :
    Splits interrupted.remaining [⟨[11], by decide, by decide⟩] .invalid [0, 0, 0, 0] :=
  ⟨by decide, by decide, .inl (by decide)⟩

/-- Both the request and the length field are answered with a failure. -/
theorem interrupted_connection_framing : interrupted.ending = none ∧ ∃ message,
    serveConnection (cooperative (disconnected ⟨fun _ => id, true⟩)) interrupted =
      ⟨[failureResponse, failureResponse], .error message⟩ := by
  obtain ⟨frames, kind, tail, _, unique, ⟨ending, ends, serves⟩, _⟩ :=
    connection_framing ⟨fun _ => id, true⟩ (disconnected _) interrupted rfl
  obtain ⟨rfl, rfl, rfl⟩ := unique _ _ _ interrupted_splits
  obtain ⟨message, rfl⟩ := ends
  exact ⟨rfl, message, serves.trans (by simp [disconnected, respond])⟩

end Keyvisor.Connection
