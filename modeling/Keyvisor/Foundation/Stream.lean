import Keyvisor.Foundation.BigEndian
import Keyvisor.Foundation.IoError

/-!
# Byte streams in chunks

A stream delivers its bytes in chunks of any sizes and then ends, regularly or
with an error. A read returns at most what was asked for and never looks beyond
the current chunk, so every way of cutting a stream into short reads is some
chunking. The buffered reader keeps what it has fetched and not yet handed out.

What a reader obtains depends on the bytes that remain and not on the chunks.
-/

namespace Keyvisor.Foundation.Stream

/-- The undelivered chunks, none of them empty, and how the stream ends. -/
structure Source where
  chunks : List Bytes
  ending : Option IoError
  filled : ∀ chunk ∈ chunks, chunk ≠ []

namespace Source

/-- The bytes that are still to come. -/
def remaining (source : Source) : Bytes := source.chunks.flatten

/-- One read of at most `limit` bytes. No byte at all is the regular end. -/
def read (limit : Nat) (source : Source) : Except IoError (Bytes × Source) :=
  match source with
  | ⟨[], none, filled⟩ => .ok ([], ⟨[], none, filled⟩)
  | ⟨[], some error, _⟩ => .error error
  | ⟨chunk :: rest, ending, filled⟩ =>
    if long : limit < chunk.length then
      .ok (chunk.take limit, ⟨chunk.drop limit :: rest, ending, by
        intro other member
        rcases List.mem_cons.mp member with rfl | later
        · exact fun empty => by simp only [List.drop_eq_nil_iff] at empty; omega
        · exact filled other (List.mem_cons_of_mem _ later)⟩)
    else .ok (chunk, ⟨rest, ending, fun other member => filled other (List.mem_cons_of_mem _ member)⟩)

/-- What a read returns is the leading part of what remained. -/
theorem read_split {limit : Nat} {source after : Source} {bytes : Bytes}
    (reads : source.read limit = .ok (bytes, after)) : source.remaining = bytes ++ after.remaining := by
  unfold read at reads
  split at reads
  · cases reads
    rfl
  · cases reads
  · split at reads
    · cases reads
      simp only [remaining, List.flatten_cons]
      rw [← List.append_assoc, List.take_append_drop]
    · cases reads
      rfl

/-- A read takes at least one byte while there is one. -/
theorem read_spec {limit : Nat} (positive : 0 < limit) (source : Source) (more : source.remaining ≠ []) :
    ∃ bytes after, source.read limit = .ok (bytes, after) ∧ bytes ≠ [] ∧ bytes.length ≤ limit ∧
      source.remaining = bytes ++ after.remaining ∧ after.ending = source.ending := by
  obtain ⟨chunks, ending, filled⟩ := source
  cases chunks with
  | nil => exact absurd rfl more
  | cons chunk rest =>
    have nonempty : chunk ≠ [] := filled chunk List.mem_cons_self
    simp only [read]
    split
    · rename_i long
      refine ⟨_, _, rfl, ?_, List.length_take_le _ _, ?_, rfl⟩
      · rw [ne_eq, List.take_eq_nil_iff]
        rintro (zero | empty)
        · omega
        · exact nonempty empty
      · simp only [remaining, List.flatten_cons]
        rw [← List.append_assoc, List.take_append_drop]
    · exact ⟨_, _, rfl, nonempty, by omega, rfl, rfl⟩

/-- At the end of a regular stream a read returns nothing. -/
theorem read_end (limit : Nat) (source : Source) (finished : source.remaining = [])
    (regular : source.ending = none) : source.read limit = .ok ([], source) := by
  obtain ⟨chunks, ending, filled⟩ := source
  cases chunks with
  | nil =>
    cases regular
    rfl
  | cons chunk rest =>
    have nonempty : chunk ≠ [] := filled chunk List.mem_cons_self
    simp only [remaining, List.flatten_cons, List.append_eq_nil_iff] at finished
    exact absurd finished.1 nonempty

end Source

/-! ## Exact reads -/

section

variable {σ : Type} (read : Nat → σ → Except IoError (Bytes × σ))

/-- The loop of `read_exact` over any reader. A read that returns nothing, or that
returns more than it was asked for, cannot fill the rest. -/
def fill (count : Nat) (reader : σ) : Except IoError (Bytes × σ) :=
  if count = 0 then .ok ([], reader)
  else
    match read count reader with
    | .error error => .error error
    | .ok (bytes, after) =>
      if _progress : 0 < bytes.length ∧ bytes.length ≤ count then
        match fill (count - bytes.length) after with
        | .error error => .error error
        | .ok (rest, final) => .ok (bytes ++ rest, final)
      else .error .unfilled
termination_by count

/-- What an exact read returns is the leading part of what the reader held. -/
theorem fill_split {bytesOf : σ → Bytes} (splits : ∀ limit reader bytes after,
      read limit reader = .ok (bytes, after) → bytesOf reader = bytes ++ bytesOf after)
    (count : Nat) {reader final : σ} {bytes : Bytes} (fills : fill read count reader = .ok (bytes, final)) :
    bytesOf reader = bytes ++ bytesOf final := by
  induction count using Nat.strong_induction_on generalizing reader bytes with
  | _ count inductionHypothesis =>
    rw [fill] at fills
    split at fills
    · cases fills
      rfl
    · split at fills
      · cases fills
      · rename_i first middle reads
        split at fills
        · rename_i progress
          split at fills
          · cases fills
          · rename_i rest last later
            cases fills
            rw [splits _ _ _ _ reads, inductionHypothesis _ (by omega) later, List.append_assoc]
        · cases fills

/-- An exact read returns exactly as many bytes as it was asked for. -/
theorem length_fill (count : Nat) {reader final : σ} {bytes : Bytes}
    (fills : fill read count reader = .ok (bytes, final)) : bytes.length = count := by
  induction count using Nat.strong_induction_on generalizing reader bytes with
  | _ count inductionHypothesis =>
    rw [fill] at fills
    split at fills
    · cases fills
      simp_all
    · split at fills
      · cases fills
      · split at fills
        · split at fills
          · cases fills
          · rename_i rest last later
            cases fills
            have left := inductionHypothesis _ (by omega) later
            rw [List.length_append]
            omega
        · cases fills

/-- A view of a reader as the bytes it still holds: while there are some, a read
takes a leading part of positive length. -/
def Delivers (bytesOf : σ → Bytes) (sound : σ → Prop) : Prop :=
  ∀ limit reader, 0 < limit → sound reader → bytesOf reader ≠ [] →
    ∃ bytes after, read limit reader = .ok (bytes, after) ∧ bytes ≠ [] ∧ bytes.length ≤ limit ∧
      bytesOf reader = bytes ++ bytesOf after ∧ sound after

/-- A read at the end returns nothing. -/
def Finishes (bytesOf : σ → Bytes) (sound : σ → Prop) : Prop :=
  ∀ limit reader, 0 < limit → sound reader → bytesOf reader = [] → ∃ after, read limit reader = .ok ([], after)

variable {read} {bytesOf : σ → Bytes} {sound : σ → Prop}

/-- An exact read takes the leading bytes when there are enough of them, whatever
the sizes of the single reads. -/
theorem fill_enough (delivers : Delivers read bytesOf sound) (count : Nat) (reader : σ)
    (regular : sound reader) (enough : count ≤ (bytesOf reader).length) :
    ∃ after, fill read count reader = .ok ((bytesOf reader).take count, after) ∧
      bytesOf after = (bytesOf reader).drop count ∧ sound after := by
  induction count using Nat.strong_induction_on generalizing reader with
  | _ count inductionHypothesis =>
    rw [fill]
    by_cases zero : count = 0
    · subst zero
      exact ⟨reader, by simp, by simp, regular⟩
    · have more : bytesOf reader ≠ [] := by
        intro empty
        rw [empty] at enough
        simp only [List.length_nil] at enough
        omega
      obtain ⟨bytes, middle, reads, nonempty, short, split, kept⟩ :=
        delivers count reader (Nat.pos_of_ne_zero zero) regular more
      have positive := List.length_pos_iff.mpr nonempty
      have left : count - bytes.length ≤ (bytesOf middle).length := by
        rw [split, List.length_append] at enough
        omega
      obtain ⟨after, fills, rest, final⟩ :=
        inductionHypothesis (count - bytes.length) (by omega) middle kept left
      refine ⟨after, ?_, ?_, final⟩
      · simp only [zero, ↓reduceIte, reads, positive, short, and_self, ↓reduceDIte, fills]
        rw [split, List.take_append, List.take_of_length_le short]
      · rw [rest, split, List.drop_append, List.drop_of_length_le short, List.nil_append]

/-- An exact read of more bytes than there are fails. -/
theorem fill_short (delivers : Delivers read bytesOf sound) (finishes : Finishes read bytesOf sound)
    (count : Nat) (reader : σ) (regular : sound reader) (short : (bytesOf reader).length < count) :
    fill read count reader = .error .unfilled := by
  induction count using Nat.strong_induction_on generalizing reader with
  | _ count inductionHypothesis =>
    rw [fill]
    have nonzero : count ≠ 0 := by omega
    by_cases empty : bytesOf reader = []
    · obtain ⟨after, reads⟩ := finishes count reader (Nat.pos_of_ne_zero nonzero) regular empty
      simp [nonzero, reads]
    · obtain ⟨bytes, middle, reads, nonempty, fits, split, kept⟩ :=
        delivers count reader (Nat.pos_of_ne_zero nonzero) regular empty
      have positive := List.length_pos_iff.mpr nonempty
      have left : (bytesOf middle).length < count - bytes.length := by
        rw [split, List.length_append] at short
        omega
      have fails := inductionHypothesis (count - bytes.length) (by omega) middle kept left
      simp only [nonzero, ↓reduceIte, reads, positive, fits, and_self, ↓reduceDIte, fails]

end

/-- `read_exact` on the stream itself. -/
def Source.readExact (count : Nat) (source : Source) : Except IoError (Bytes × Source) :=
  fill Source.read count source

/-- An exact read takes the first bytes that remain. -/
theorem Source.readExact_split {count : Nat} {source after : Source} {bytes : Bytes}
    (reads : source.readExact count = .ok (bytes, after)) : source.remaining = bytes ++ after.remaining :=
  fill_split Source.read (fun _ _ _ _ => read_split) count reads

/-- A stream delivers its remaining bytes, however it ends. -/
theorem Source.delivers (ending : Option IoError) :
    Delivers Source.read Source.remaining (fun source => source.ending = ending) := by
  intro limit source positive regular more
  obtain ⟨bytes, after, reads, nonempty, short, split, kept⟩ := read_spec positive source more
  exact ⟨bytes, after, reads, nonempty, short, split, kept.trans regular⟩

/-- A source is read to its end unless it ends in an error. -/
theorem Source.finishes : Finishes Source.read Source.remaining (fun source => source.ending = none) :=
  fun limit source _ regular finished => ⟨source, read_end limit source finished regular⟩

/-- A stream that starts with the given bytes: in any chunks, with anything after
them and with any end. -/
structure Delivery (bytes : Bytes) where
  source : Source
  rest : Bytes
  starts : source.remaining = bytes ++ rest

/-! ## Lines -/

/-- The bytes through the first delimiter, or all of them. -/
def upTo (delimiter : UInt8) : Bytes → Bytes
  | [] => []
  | byte :: rest => if byte = delimiter then [byte] else byte :: upTo delimiter rest

/-- Without the delimiter everything comes before it. -/
theorem upTo_of_not_mem {delimiter : UInt8} {bytes : Bytes} (absent : delimiter ∉ bytes) :
    upTo delimiter bytes = bytes := by
  induction bytes with
  | nil => rfl
  | cons byte rest inductionHypothesis =>
    obtain ⟨different, later⟩ := not_or.mp (List.mem_cons.not.mp absent)
    simp only [upTo, Ne.symm different, ↓reduceIte, inductionHypothesis later]

/-- A delimiter in the first part ends the line there. -/
theorem upTo_append_of_mem {delimiter : UInt8} {first : Bytes} (present : delimiter ∈ first) (rest : Bytes) :
    upTo delimiter (first ++ rest) = upTo delimiter first := by
  induction first with
  | nil => cases present
  | cons byte later inductionHypothesis =>
    simp only [List.cons_append, upTo]
    split
    · rfl
    · rename_i different
      rcases List.mem_cons.mp present with same | further
      · exact absurd same.symm different
      · rw [inductionHypothesis further]

/-- Bytes without the delimiter come before those up to it. -/
theorem upTo_append_of_not_mem {delimiter : UInt8} {first : Bytes} (absent : delimiter ∉ first)
    (rest : Bytes) : upTo delimiter (first ++ rest) = first ++ upTo delimiter rest := by
  induction first with
  | nil => rfl
  | cons byte later inductionHypothesis =>
    obtain ⟨different, further⟩ := not_or.mp (List.mem_cons.not.mp absent)
    simp only [List.cons_append, upTo, Ne.symm different, ↓reduceIte, inductionHypothesis further]

/-- A line is what precedes its delimiter, followed by the delimiter. -/
theorem upTo_line {delimiter : UInt8} {line : Bytes} (absent : delimiter ∉ line) (rest : Bytes) :
    upTo delimiter (line ++ delimiter :: rest) = line ++ [delimiter] := by
  rw [upTo_append_of_not_mem absent]
  simp [upTo]

/-- What comes up to the delimiter is not longer than the whole. -/
theorem length_upTo_le (delimiter : UInt8) (bytes : Bytes) : (upTo delimiter bytes).length ≤ bytes.length := by
  induction bytes with
  | nil => exact Nat.le_refl 0
  | cons byte rest inductionHypothesis =>
    simp only [upTo]
    split
    · simp
    · simpa using inductionHypothesis

/-- The delimiter is at most the last of the bytes through it. -/
theorem not_mem_dropLast_upTo (delimiter : UInt8) (bytes : Bytes) :
    delimiter ∉ (upTo delimiter bytes).dropLast := by
  induction bytes with
  | nil => exact List.not_mem_nil
  | cons byte rest inductionHypothesis =>
    by_cases same : byte = delimiter
    · simp [upTo, same]
    · simp only [upTo, same, ↓reduceIte]
      cases later : upTo delimiter rest with
      | nil => simp
      | cons next further =>
        rw [later] at inductionHypothesis
        simp only [List.dropLast_cons_cons, List.mem_cons, not_or]
        exact ⟨Ne.symm same, inductionHypothesis⟩

/-- A first line is empty only where there is nothing. -/
theorem upTo_eq_nil {delimiter : UInt8} {bytes : Bytes} (empty : upTo delimiter bytes = []) : bytes = [] := by
  cases bytes with
  | nil => rfl
  | cons byte rest =>
    rw [upTo] at empty
    split at empty <;> cases empty

/-- A first line is determined by the bytes that it starts. -/
theorem line_unique {delimiter : UInt8} {first second rest other : Bytes} (absent : delimiter ∉ first)
    (missing : delimiter ∉ second) (same : first ++ delimiter :: rest = second ++ delimiter :: other) :
    first = second ∧ rest = other := by
  have lines := congrArg (upTo delimiter) same
  rw [upTo_line absent, upTo_line missing] at lines
  obtain rfl := List.append_cancel_right lines
  exact ⟨rfl, (List.cons.inj (List.append_cancel_left same)).2⟩

/-- Lines as they are written, each with its delimiter. -/
def lined (delimiter : UInt8) (lines : List Bytes) : Bytes := lines.flatMap fun line => line ++ [delimiter]

/-- No lines are no bytes. -/
@[simp] theorem lined_nil (delimiter : UInt8) : lined delimiter [] = [] := rfl

/-- A line is followed by its delimiter and the other lines. -/
@[simp] theorem lined_cons (delimiter : UInt8) (line : Bytes) (rest : List Bytes) :
    lined delimiter (line :: rest) = line ++ delimiter :: lined delimiter rest := by
  simp [lined]

/-- Lines one after the other are written one after the other. -/
@[simp] theorem lined_append (delimiter : UInt8) (first second : List Bytes) :
    lined delimiter (first ++ second) = lined delimiter first ++ lined delimiter second := by
  simp [lined]

/-- Complete lines of a text are its first lines, whatever incomplete line follows
them. -/
theorem lines_of_text {delimiter : UInt8} {lines text : List Bytes} {tail : Bytes}
    (clean : ∀ line ∈ lines, delimiter ∉ line) (neat : ∀ line ∈ text, delimiter ∉ line) (open_ : delimiter ∉ tail)
    (starts : lined delimiter lines <+: lined delimiter text ++ tail) : lines <+: text := by
  induction lines generalizing text with
  | nil => exact List.nil_prefix
  | cons line rest inductionHypothesis =>
    obtain ⟨after, whole⟩ := starts
    rw [lined_cons, List.append_assoc, List.cons_append] at whole
    cases text with
    | nil =>
      rw [lined_nil, List.nil_append] at whole
      exact absurd (whole ▸ List.mem_append_right line List.mem_cons_self) open_
    | cons first later =>
      rw [lined_cons, List.append_assoc, List.cons_append] at whole
      obtain ⟨rfl, remainder⟩ := line_unique (clean line List.mem_cons_self) (neat first List.mem_cons_self) whole
      rw [List.prefix_cons_inj]
      exact inductionHypothesis (fun other member => clean other (List.mem_cons_of_mem _ member))
        (fun other member => neat other (List.mem_cons_of_mem _ member)) ⟨after, remainder⟩

/-! ## Buffered reading -/

/-- A reader that has fetched some bytes and not yet handed them out. -/
structure Buffered where
  held : Bytes
  source : Source

namespace Buffered

/-- How much a buffered reader fetches at once. -/
def capacity : Nat := 8 * 1024

/-- A buffer that holds nothing yet. -/
def new (source : Source) : Buffered := ⟨[], source⟩

/-- The bytes that are still to come, fetched or not. -/
def bytes (reader : Buffered) : Bytes := reader.held ++ reader.source.remaining

/-- A new buffer is ahead by nothing. -/
@[simp] theorem bytes_new (source : Source) : (new source).bytes = source.remaining := rfl

/-- Fetch only when nothing is left. -/
def fillBuf (reader : Buffered) : Except IoError Buffered :=
  if reader.held = [] then
    match reader.source.read capacity with
    | .error error => .error error
    | .ok (fetched, after) => .ok ⟨fetched, after⟩
  else .ok reader

/-- The first bytes are dropped. -/
def consume (count : Nat) (reader : Buffered) : Buffered := ⟨reader.held.drop count, reader.source⟩

/-- A large read with nothing left goes around the buffer. -/
def read (limit : Nat) (reader : Buffered) : Except IoError (Bytes × Buffered) :=
  if reader.held = [] ∧ capacity ≤ limit then
    match reader.source.read limit with
    | .error error => .error error
    | .ok (bytes, after) => .ok (bytes, ⟨[], after⟩)
  else
    match reader.fillBuf with
    | .error error => .error error
    | .ok filled => .ok (filled.held.take limit, filled.consume limit)

/-- `read_exact` on the buffered reader. -/
def readExact (count : Nat) (reader : Buffered) : Except IoError (Bytes × Buffered) := fill read count reader

/-- `read_until` on the reader restricted to `limit` further bytes: through the
delimiter, the limit or the end, whichever comes first. -/
def readUntil (delimiter : UInt8) (limit : Nat) (reader : Buffered) : Except IoError (Bytes × Buffered) :=
  if limit = 0 then .ok ([], reader)
  else
    match reader.fillBuf with
    | .error error => .error error
    | .ok filled =>
      let available := filled.held.take limit
      let line := upTo delimiter available
      let after := filled.consume line.length
      if _settled : delimiter ∈ available ∨ line.length = 0 then .ok (line, after)
      else
        match readUntil delimiter (limit - line.length) after with
        | .error error => .error error
        | .ok (rest, final) => .ok (line ++ rest, final)
termination_by limit
decreasing_by
  show limit - line.length < limit
  omega

/-- Fetching changes where the bytes are and not which bytes they are. -/
theorem fillBuf_spec (reader : Buffered) (more : reader.bytes ≠ []) :
    ∃ filled, reader.fillBuf = .ok filled ∧ filled.held ≠ [] ∧ filled.bytes = reader.bytes ∧
      filled.source.ending = reader.source.ending := by
  obtain ⟨held, source⟩ := reader
  by_cases empty : held = []
  · subst empty
    obtain ⟨fetched, after, reads, nonempty, _, split, kept⟩ :=
      Source.read_spec (show 0 < capacity by decide) source more
    refine ⟨⟨fetched, after⟩, ?_, nonempty, split.symm, kept⟩
    simp only [fillBuf, ↓reduceIte, reads]
  · exact ⟨⟨held, source⟩, if_neg empty, empty, rfl, rfl⟩

/-- At the end of a regular stream there is nothing to fetch. -/
theorem fillBuf_end (reader : Buffered) (finished : reader.bytes = []) (regular : reader.source.ending = none) :
    reader.fillBuf = .ok reader := by
  obtain ⟨held, source⟩ := reader
  obtain ⟨rfl, empty⟩ := List.append_eq_nil_iff.mp finished
  simp only [fillBuf, ↓reduceIte, Source.read_end capacity source empty regular]

/-- Consumed bytes are dropped. -/
theorem bytes_consume {count : Nat} {reader : Buffered} (held : count ≤ reader.held.length) :
    (reader.consume count).bytes = reader.bytes.drop count := by
  simp only [bytes, consume]
  rw [List.drop_append_of_le_length held]

/-- A buffered reader delivers its bytes, however its stream ends. -/
theorem delivers (ending : Option IoError) :
    Delivers read bytes (fun reader => reader.source.ending = ending) := by
  intro limit reader positive regular more
  unfold read
  split
  · rename_i bypass
    have all : reader.bytes = reader.source.remaining := by rw [bytes, bypass.1, List.nil_append]
    rw [all] at more ⊢
    obtain ⟨taken, after, reads, nonempty, short, split, kept⟩ := Source.read_spec positive reader.source more
    exact ⟨taken, ⟨[], after⟩, by simp only [reads], nonempty, short, split, kept.trans regular⟩
  · obtain ⟨filled, fills, nonempty, same, kept⟩ := fillBuf_spec reader more
    refine ⟨filled.held.take limit, filled.consume limit, by simp only [fills], ?_, List.length_take_le _ _,
      ?_, kept.trans regular⟩
    · rw [ne_eq, List.take_eq_nil_iff]
      rintro (zero | empty)
      · omega
      · exact nonempty empty
    · rw [← same]
      simp only [bytes, consume]
      rw [← List.append_assoc, List.take_append_drop]

/-- Fetching that succeeds leaves the bytes as they are. -/
theorem bytes_fillBuf {reader filled : Buffered} (fills : reader.fillBuf = .ok filled) :
    filled.bytes = reader.bytes := by
  unfold fillBuf at fills
  split at fills
  · rename_i empty
    split at fills
    · cases fills
    · rename_i reads
      cases fills
      rw [bytes, bytes, empty, List.nil_append, Source.read_split reads]
  · cases fills
    rfl

/-- What a read returns is the leading part of what the reader held. -/
theorem read_split {limit : Nat} {reader after : Buffered} {taken : Bytes}
    (reads : reader.read limit = .ok (taken, after)) : reader.bytes = taken ++ after.bytes := by
  unfold read at reads
  split at reads
  · rename_i bypass
    split at reads
    · cases reads
    · rename_i fetched
      cases reads
      rw [bytes, bypass.1, List.nil_append, Source.read_split fetched]
      rfl
  · split at reads
    · cases reads
    · rename_i filled fills
      cases reads
      rw [← bytes_fillBuf fills]
      simp only [bytes, consume]
      rw [← List.append_assoc, List.take_append_drop]

/-- An exact read takes the first bytes of the buffer and its source. -/
theorem readExact_split {count : Nat} {reader after : Buffered} {taken : Bytes}
    (reads : reader.readExact count = .ok (taken, after)) : reader.bytes = taken ++ after.bytes :=
  fill_split read (fun _ _ _ _ => read_split) count reads

/-- The line ends where the octets up to it do. -/
theorem upTo_split (delimiter : UInt8) (held : Bytes) (limit : Nat) :
    held = upTo delimiter (held.take limit) ++ held.drop (upTo delimiter (held.take limit)).length := by
  have start (bytes : Bytes) : upTo delimiter bytes <+: bytes := by
    induction bytes with
    | nil => exact List.nil_prefix
    | cons byte rest inductionHypothesis =>
      simp only [upTo]
      split
      · exact ⟨rest, rfl⟩
      · exact List.prefix_cons_inj byte |>.mpr inductionHypothesis
  exact (List.prefix_iff_eq_append.mp ((start _).trans (List.take_prefix limit held))).symm

/-- What is read through a delimiter is the leading part of what the reader held. -/
theorem readUntil_split {delimiter : UInt8} {limit : Nat} {reader after : Buffered} {line : Bytes}
    (reads : readUntil delimiter limit reader = .ok (line, after)) : reader.bytes = line ++ after.bytes := by
  induction limit using Nat.strong_induction_on generalizing reader line with
  | _ limit inductionHypothesis =>
    rw [readUntil] at reads
    split at reads
    · cases reads
      rfl
    · split at reads
      · cases reads
      · rename_i filled fills
        have part := upTo_split delimiter filled.held limit
        have consumed (length : Nat) : (filled.consume length).bytes = filled.held.drop length ++
            filled.source.remaining := rfl
        have whole : reader.bytes = upTo delimiter (filled.held.take limit) ++
            (filled.consume (upTo delimiter (filled.held.take limit)).length).bytes := by
          rw [consumed, ← List.append_assoc, ← part, ← bytes_fillBuf fills]
          rfl
        dsimp only at reads
        split at reads
        · cases reads
          exact whole
        · rename_i unsettled
          split at reads
          · cases reads
          · rename_i rest final later
            cases reads
            rw [whole, inductionHypothesis _ (by omega) later, List.append_assoc]

/-- A bounded part of the bytes is what is held of it and then the rest of it. -/
theorem take_fetched (limit : Nat) (held rest : Bytes) :
    (held ++ rest).take limit = held.take limit ++
      ((held ++ rest).drop (held.take limit).length).take (limit - (held.take limit).length) := by
  by_cases long : limit ≤ held.length
  · rw [List.length_take, Nat.min_eq_left long, Nat.sub_self, List.take_zero, List.append_nil,
      List.take_append_of_le_length long]
  · have whole : held.take limit = held := List.take_of_length_le (by omega)
    rw [whole, List.drop_left, List.take_append, whole]

/-- Reading a line takes the bytes through the delimiter, if it comes within the
limit, and otherwise all bytes within the limit, for which there must be enough
bytes or a regular end. The induction is on the limit that is left. -/
theorem readUntil_spec (delimiter : UInt8) (limit : Nat) (reader : Buffered)
    (settled : delimiter ∈ reader.bytes.take limit ∨ limit ≤ reader.bytes.length ∨
      reader.source.ending = none) :
    ∃ after, readUntil delimiter limit reader = .ok (upTo delimiter (reader.bytes.take limit), after) ∧
      after.bytes = reader.bytes.drop (upTo delimiter (reader.bytes.take limit)).length ∧
      after.source.ending = reader.source.ending := by
  induction limit using Nat.strong_induction_on generalizing reader with
  | _ limit inductionHypothesis =>
    rw [readUntil]
    by_cases zero : limit = 0
    · subst zero
      exact ⟨reader, by simp [upTo], by simp [upTo], rfl⟩
    by_cases empty : reader.bytes = []
    · have regular : reader.source.ending = none := by
        rcases settled with present | enough | regular
        · simp [empty] at present
        · rw [empty, List.length_nil] at enough
          omega
        · exact regular
      have held : reader.held = [] := (List.append_eq_nil_iff.mp empty).1
      refine ⟨reader.consume 0, ?_, ?_, rfl⟩
      · simp [zero, fillBuf_end reader empty regular, held, empty, upTo]
      · simp [bytes_consume, empty, upTo]
    obtain ⟨filled, fills, nonempty, same, kept⟩ := fillBuf_spec reader empty
    have parts : reader.bytes.take limit =
        filled.held.take limit ++ filled.source.remaining.take (limit - filled.held.length) := by
      rw [← same, bytes, List.take_append]
    have width : (filled.held.take limit).length = min limit filled.held.length := List.length_take
    have positive := List.length_pos_iff.mpr nonempty
    simp only [zero, ↓reduceIte, fills]
    by_cases present : delimiter ∈ filled.held.take limit
    · have within := length_upTo_le delimiter (filled.held.take limit)
      refine ⟨filled.consume (upTo delimiter (filled.held.take limit)).length, ?_, ?_, kept⟩
      · simp only [present, true_or, ↓reduceDIte, parts, upTo_append_of_mem present]
      · rw [parts, upTo_append_of_mem present, bytes_consume (by omega), same]
    · have line : upTo delimiter (filled.held.take limit) = filled.held.take limit := upTo_of_not_mem present
      have progress : ¬ (delimiter ∈ filled.held.take limit ∨ (filled.held.take limit).length = 0) := by
        rintro (found | none)
        · exact present found
        · omega
      have rest : (filled.consume (filled.held.take limit).length).bytes =
          reader.bytes.drop (filled.held.take limit).length := by
        rw [bytes_consume (by omega), same]
      have remains : reader.bytes.take limit = filled.held.take limit ++
          (reader.bytes.drop (filled.held.take limit).length).take
            (limit - (filled.held.take limit).length) := by
        rw [← same]
        exact take_fetched limit filled.held filled.source.remaining
      have later : delimiter ∈ (filled.consume (filled.held.take limit).length).bytes.take
            (limit - (filled.held.take limit).length) ∨
          limit - (filled.held.take limit).length ≤
            (filled.consume (filled.held.take limit).length).bytes.length ∨
          (filled.consume (filled.held.take limit).length).source.ending = none := by
        rw [rest]
        rcases settled with found | enough | regular
        · rw [remains] at found
          exact .inl ((List.mem_append.mp found).resolve_left present)
        · rw [List.length_drop]
          exact .inr (.inl (by omega))
        · exact .inr (.inr (kept.trans regular))
      obtain ⟨after, reads, left, final⟩ := inductionHypothesis _ (by omega) _ later
      refine ⟨after, ?_, ?_, final.trans kept⟩
      · simp only [line, progress, ↓reduceDIte, reads]
        rw [rest, remains, upTo_append_of_not_mem present]
      · rw [left, rest, List.drop_drop, remains, upTo_append_of_not_mem present, List.length_append]

/-- A whole line within the limit is read with its delimiter, and what follows is left. -/
theorem readUntil_line (delimiter : UInt8) (limit : Nat) (reader : Buffered) {line rest : Bytes}
    (split : reader.bytes = line ++ delimiter :: rest) (absent : delimiter ∉ line)
    (within : line.length < limit) :
    ∃ after, readUntil delimiter limit reader = .ok (line ++ [delimiter], after) ∧ after.bytes = rest ∧
      after.source.ending = reader.source.ending := by
  have start : reader.bytes.take limit = line ++ delimiter :: rest.take (limit - line.length - 1) := by
    obtain ⟨room, exceeds⟩ := Nat.exists_eq_add_of_lt within
    rw [split, List.take_append, List.take_of_length_le (by omega),
      show limit - line.length = room + 1 by omega, List.take_succ_cons]
    simp
  have line_read : upTo delimiter (reader.bytes.take limit) = line ++ [delimiter] := by
    rw [start, upTo_line absent]
  obtain ⟨after, reads, left, kept⟩ :=
    readUntil_spec delimiter limit reader (.inl (by rw [start]; simp))
  rw [line_read] at reads left
  refine ⟨after, reads, ?_, kept⟩
  have joined : line ++ delimiter :: rest = line ++ [delimiter] ++ rest := List.append_cons _ _ _
  rw [left, split, joined, List.drop_left]

/-- Fetching keeps how the stream ends, and fetches nothing only at a regular end. -/
theorem ending_fillBuf {reader filled : Buffered} (fills : reader.fillBuf = .ok filled) :
    filled.source.ending = reader.source.ending ∧ (filled.held = [] → reader.source.ending = none) := by
  by_cases more : reader.bytes = []
  · obtain ⟨held, chunks, ending, nonempty⟩ := reader
    obtain ⟨rfl, flat⟩ := List.append_eq_nil_iff.mp more
    cases chunks with
    | nil =>
      cases ending with
      | none =>
        cases fills
        exact ⟨rfl, fun _ => rfl⟩
      | some error => cases fills
    | cons chunk rest => exact absurd (List.append_eq_nil_iff.mp flat).1 (nonempty chunk List.mem_cons_self)
  · obtain ⟨other, found, full, _, kept⟩ := fillBuf_spec reader more
    rw [fills] at found
    cases found
    exact ⟨kept, fun empty => absurd empty full⟩

/-- A line that was read ended at its delimiter, at the limit or at a regular end. -/
theorem readUntil_settled {delimiter : UInt8} {limit : Nat} {reader after : Buffered} {line : Bytes}
    (reads : readUntil delimiter limit reader = .ok (line, after)) :
    delimiter ∈ reader.bytes.take limit ∨ limit ≤ reader.bytes.length ∨ reader.source.ending = none := by
  induction limit using Nat.strong_induction_on generalizing reader line with
  | _ limit inductionHypothesis =>
    by_cases zero : limit = 0
    · exact .inr (.inl (by omega))
    rw [readUntil, if_neg zero] at reads
    split at reads
    · cases reads
    · rename_i filled fills
      obtain ⟨kept, regular⟩ := ending_fillBuf fills
      have same := bytes_fillBuf fills
      dsimp only at reads
      split at reads
      · rename_i settled
        rcases settled with present | empty
        · rw [← same, bytes, List.take_append]
          exact .inl (List.mem_append_left _ present)
        · have nothing := upTo_eq_nil (List.length_eq_zero_iff.mp empty)
          rcases List.take_eq_nil_iff.mp nothing with impossible | held
          · exact absurd impossible zero
          · exact .inr (.inr (regular held))
      · rename_i unsettled
        obtain ⟨absent, progress⟩ := not_or.mp unsettled
        have line : upTo delimiter (filled.held.take limit) = filled.held.take limit := upTo_of_not_mem absent
        rw [line] at progress reads
        split at reads
        · cases reads
        · rename_i rest final later
          cases reads
          have width : (filled.held.take limit).length = min limit filled.held.length := List.length_take
          have smaller : limit - (filled.held.take limit).length < limit := by omega
          have continues := inductionHypothesis _ smaller later
          rw [bytes_consume (by omega), same] at continues
          rcases continues with present | long | ended
          · left
            rw [← same, bytes, take_fetched]
            rw [← same, bytes] at present
            exact List.mem_append_right _ present
          · have fits : (filled.held.take limit).length ≤ reader.bytes.length := by
              rw [← same, bytes, List.length_append]
              omega
            rw [List.length_drop] at long
            exact .inr (.inl (by omega))
          · exact .inr (.inr (kept ▸ ended))

/-- What is read with its delimiter at the end, within the limit, is the first line. -/
theorem readUntil_complete {delimiter : UInt8} {limit : Nat} {reader after : Buffered} {line : Bytes}
    (reads : readUntil delimiter limit reader = .ok (line ++ [delimiter], after))
    (within : line.length < limit) : delimiter ∉ line ∧ reader.bytes = line ++ delimiter :: after.bytes := by
  have split := readUntil_split reads
  have present : delimiter ∈ reader.bytes.take limit := by
    rw [split, List.take_append, List.take_of_length_le (by simp; omega)]
    simp
  obtain ⟨other, found, _, _⟩ := readUntil_spec delimiter limit reader (.inl present)
  rw [reads, Except.ok.injEq, Prod.mk.injEq] at found
  constructor
  · have clean := not_mem_dropLast_upTo delimiter (reader.bytes.take limit)
    rwa [← found.1, List.dropLast_concat] at clean
  · rw [split, List.append_assoc, List.singleton_append]

/-- A line that was read with its delimiter, and that is not longer than the limit with
it, is the first line. -/
theorem readUntil_terminated {delimiter : UInt8} {limit : Nat} {reader after : Buffered} {bytes : Bytes}
    (reads : readUntil delimiter (limit + 1) reader = .ok (bytes, after))
    (complete : ¬ (bytes.getLast? ≠ some delimiter ∨ limit < bytes.length)) :
    ∃ line, bytes = line ++ [delimiter] ∧ delimiter ∉ line ∧ line.length < limit ∧
      reader.bytes = line ++ delimiter :: after.bytes := by
  obtain ⟨finished, short⟩ := not_or.mp complete
  obtain ⟨line, rfl⟩ := List.getLast?_eq_some_iff.mp (not_not.mp finished)
  rw [List.length_append, List.length_singleton] at short
  obtain ⟨single, split⟩ := readUntil_complete reads (by omega)
  exact ⟨line, rfl, single, by omega, split⟩

/-- The line with its delimiter passes the test for a complete line. -/
theorem terminated {delimiter : UInt8} {limit : Nat} {line : Bytes} (within : line.length < limit) :
    ¬ ((line ++ [delimiter]).getLast? ≠ some delimiter ∨ limit < (line ++ [delimiter]).length) := by
  rintro (unfinished | long)
  · exact unfinished List.getLast?_concat
  · rw [List.length_append, List.length_singleton] at long
    omega

end Buffered

end Keyvisor.Foundation.Stream
