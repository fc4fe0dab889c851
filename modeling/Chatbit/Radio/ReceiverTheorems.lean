import Chatbit.Radio.LoRaTheorems
import Chatbit.Radio.Receiver
import Chatbit.Radio.Slip
import Chatbit.Utf8

/-!
# What comes out of the receive path

However the bytes are split into reads and whoever takes its turn when, the frames that have left
the queues and those in them are together the frames of the bytes that have been read, in order
(`LoRaReceiver.reads_run`). For a RYLR module, these are the frames that it reports, whatever else
it writes in between (`LoRaReceiver.hears_reports`).
-/

namespace Chatbit

open Lib

variable {ρ : Type} {float : List Char → Option ρ} {clock : ℕ → ℚ}

/-! ## Reading by turns -/

/-- The frames with the times at which they were queued. -/
def stamped (clock : ℕ → ℚ) (frames : List (ReceivedFrame ρ)) : List (ReceivedFrame ρ) :=
  frames.mapIdx fun i frame => { frame with timestamp := clock i }

/-- The frames that some bytes complete, after what was left of the bytes before, and what is left
of both. -/
def Driver.scan (float : List Char → Option ρ) (left : SlipCodec × Bytes UInt8)
    (bytes : Bytes UInt8) : Driver → List (ReceivedFrame ρ) × (SlipCodec × Bytes UInt8)
  | .slip =>
    ((left.1.feed bytes).2.map fun frame => { data := frame }, (left.1.feed bytes).1, left.2)
  | .rylr =>
    ((splitLines 0x0A (left.2 ++ bytes)).1.filterMap fun line =>
      parseRylrLine float (strip (decodeUtf8 line)),
      left.1, (splitLines 0x0A (left.2 ++ bytes)).2)

/-- Two reads are one. -/
lemma Driver.scan_append (float : List Char → Option ρ) (left : SlipCodec × Bytes UInt8)
    (s t : Bytes UInt8) (driver : Driver) :
    driver.scan float left (s ++ t) =
      ((driver.scan float left s).1 ++ (driver.scan float (driver.scan float left s).2 t).1,
        (driver.scan float (driver.scan float left s).2 t).2) := by
  cases driver with
  | slip => simp only [scan, SlipCodec.feed_append, List.map_append]
  | rylr => simp only [scan, ← List.append_assoc, splitLines_append 0x0A (left.2 ++ s) t,
      List.filterMap_append]

namespace LoRaReceiver

/-- The frames are queued, one after the other. -/
def putAll (clock : ℕ → ℚ) (frames : List (ReceivedFrame ρ)) (r : LoRaReceiver ρ) :
    LoRaReceiver ρ :=
  frames.foldl (fun r frame => r.put clock frame) r

lemma putAll_eq (frames : List (ReceivedFrame ρ)) (r : LoRaReceiver ρ) :
    r.putAll clock frames = { r with
      rxQueue := r.rxQueue ++
        frames.mapIdx fun i frame => { frame with timestamp := clock (i + r.readings) }
      readings := r.readings + frames.length } := by
  induction frames generalizing r with
  | nil => simp [putAll]
  | cons frame frames ih =>
    rw [putAll, List.foldl_cons, ← putAll, ih]
    simp [put, List.mapIdx_cons, Nat.add_assoc, Nat.add_comm 1]

lemma readLines_none {lineBuf : Bytes UInt8} (h : cutLine 0x0A lineBuf = none)
    (r : LoRaReceiver ρ) : r.readLines float clock lineBuf = { r with lineBuf } := by
  rw [readLines.eq_def]
  split
  · rfl
  · rename_i hsome
    rw [h] at hsome
    cases hsome

lemma readLines_some {lineBuf line rest : Bytes UInt8}
    (h : cutLine 0x0A lineBuf = some (line, rest)) (r : LoRaReceiver ρ) :
    r.readLines float clock lineBuf = (r.readLine float clock line).readLines float clock rest := by
  rw [readLines.eq_def]
  split
  · rename_i hnone
    rw [h] at hnone
    cases hnone
  · rename_i hsome
    rw [h] at hsome
    obtain ⟨rfl, rfl⟩ := Prod.mk.inj (Option.some.inj hsome)
    rfl

/-- The loop takes the lines one at a time. -/
lemma readLines_eq (lineBuf : Bytes UInt8) (r : LoRaReceiver ρ) :
    r.readLines float clock lineBuf =
      { r.putAll clock ((splitLines 0x0A lineBuf).1.filterMap fun line =>
          parseRylrLine float (strip (decodeUtf8 line))) with
        lineBuf := (splitLines 0x0A lineBuf).2 } := by
  obtain ⟨lines, tail, rfl, hlines, htail⟩ := exists_joinLines 0x0A lineBuf
  rw [splitLines_joinLines hlines htail]
  induction lines generalizing r with
  | nil => exact readLines_none (cutLine_eq_none htail) r
  | cons line lines ih =>
    obtain ⟨hline, hlines⟩ := List.forall_mem_cons.mp hlines
    rw [joinLines_cons, List.append_assoc, List.cons_append,
      readLines_some (cutLine_append hline _), ih _ hlines, List.filterMap_cons, readLine]
    cases parseRylrLine float (strip (decodeUtf8 line)) <;> rfl

/-- One turn of the reader thread. -/
lemma readChunk_eq {chunk : Bytes UInt8} (hchunk : chunk ≠ []) (r : LoRaReceiver ρ) :
    r.readChunk float clock chunk =
      { r.putAll clock (r.driver.scan float (r.codec, r.lineBuf) chunk).1 with
        codec := (r.driver.scan float (r.codec, r.lineBuf) chunk).2.1
        lineBuf := (r.driver.scan float (r.codec, r.lineBuf) chunk).2.2 } := by
  rw [readChunk, if_neg hchunk]
  rcases hdriver : r.driver with _ | _
  · simp only [Driver.scan]
    rw [readLines_eq, putAll_eq]
  · simp only [Driver.scan]
    rw [← List.foldl_map (f := fun frame => ({ data := frame } : ReceivedFrame ρ))
      (g := fun r frame => put clock frame r), ← putAll, putAll_eq, putAll_eq, hdriver]

/-- What is in the queues, and what has left them, after some bytes have been read. -/
structure Reads (float : List Char → Option ρ) (clock : ℕ → ℚ) (bytes : Bytes UInt8)
    (r : LoRaReceiver ρ) : Prop where
  frames : r.yielded ++ r.asyncQueue ++ r.rxQueue =
    stamped clock (r.driver.scan float ({}, []) bytes).1
  left : (r.codec, r.lineBuf) = (r.driver.scan float ({}, []) bytes).2
  readings : r.readings = (r.driver.scan float ({}, []) bytes).1.length
  framesReceived : r.framesReceived = r.yielded.length + r.asyncQueue.length

lemma Reads.readChunk {bytes : Bytes UInt8} {r : LoRaReceiver ρ} (h : r.Reads float clock bytes)
    (chunk : Bytes UInt8) :
    (r.readChunk float clock chunk).Reads float clock (bytes ++ chunk) := by
  by_cases hchunk : chunk = []
  · subst hchunk
    rwa [LoRaReceiver.readChunk, if_pos rfl, List.append_nil]
  rw [readChunk_eq hchunk, putAll_eq]
  have hscan := Driver.scan_append float ({}, []) bytes chunk r.driver
  rw [← h.left] at hscan
  constructor
  · show r.yielded ++ r.asyncQueue ++ (r.rxQueue ++ _) = _
    rw [← List.append_assoc, h.frames, hscan, stamped, stamped, List.mapIdx_append, h.readings]
  · exact (congrArg Prod.snd hscan).symm
  · show r.readings + _ = _
    rw [hscan, List.length_append, h.readings]
  · exact h.framesReceived

lemma Reads.pump {bytes : Bytes UInt8} {r : LoRaReceiver ρ} (h : r.Reads float clock bytes) :
    r.pump.Reads float clock bytes := by
  rw [LoRaReceiver.pump]
  rcases hqueue : r.rxQueue with _ | ⟨item, rest⟩
  · exact h
  refine ⟨?_, h.left, h.readings, ?_⟩
  · have hframes := h.frames
    rw [hqueue] at hframes
    simpa using hframes
  · show r.framesReceived + 1 = r.yielded.length + (r.asyncQueue ++ [item]).length
    rw [h.framesReceived, List.length_append, List.length_singleton]
    omega

lemma Reads.take {bytes : Bytes UInt8} {r : LoRaReceiver ρ} (h : r.Reads float clock bytes) :
    r.take.Reads float clock bytes := by
  rw [LoRaReceiver.take]
  rcases hqueue : r.asyncQueue with _ | ⟨item, rest⟩
  · exact h
  refine ⟨?_, h.left, h.readings, ?_⟩
  · have hframes := h.frames
    rw [hqueue] at hframes
    simpa using hframes
  · show r.framesReceived = (r.yielded ++ [item]).length + rest.length
    rw [h.framesReceived, hqueue, List.length_append, List.length_singleton, List.length_cons]
    omega

lemma driver_step (r : LoRaReceiver ρ) (event : ReceiverEvent) :
    (r.step float clock event).driver = r.driver := by
  cases event with
  | read chunk =>
    rw [step]
    by_cases hchunk : chunk = []
    · rw [readChunk, if_pos hchunk]
    · rw [readChunk_eq hchunk, putAll_eq]
  | pump =>
    rw [step, pump]
    cases r.rxQueue <;> rfl
  | take =>
    rw [step, take]
    cases r.asyncQueue <;> rfl

/-- The reader thread, the pump and the consumer lose no frame, double none and keep their order,
however their turns are mixed and however the bytes are split into reads. -/
theorem reads_run (float : List Char → Option ρ) (clock : ℕ → ℚ) (driver : Driver)
    (events : List ReceiverEvent) :
    (run float clock driver events).driver = driver ∧
      (run float clock driver events).Reads float clock (bytesRead events) := by
  induction events using List.reverseRecOn with
  | nil =>
    refine ⟨rfl, ?_, ?_, ?_, rfl⟩ <;> cases driver <;> rfl
  | append_singleton events event ih =>
    obtain ⟨hdriver, hreads⟩ := ih
    rw [run, List.foldl_append, ← run, bytesRead, List.flatMap_append, List.flatMap_singleton]
    refine ⟨(driver_step _ event).trans hdriver, ?_⟩
    cases event with
    | read chunk => exact hreads.readChunk chunk
    | pump => exact (List.append_nil (bytesRead events)).symm ▸ hreads.pump
    | take => exact (List.append_nil (bytesRead events)).symm ▸ hreads.take

end LoRaReceiver

/-! ## The lines of a RYLR module -/

/-- The text that these octets are in ASCII. -/
def asText (bytes : Bytes UInt8) : List Char := bytes.map fun b => Char.ofNat b.toNat

/-- A character of a field: printable, and no comma. -/
def IsFieldChar (c : Char) : Prop := 0x21 ≤ c.toNat ∧ c.toNat ≤ 0x7E ∧ c ≠ ','

instance (c : Char) : Decidable (IsFieldChar c) := inferInstanceAs (Decidable (_ ∧ _))

/-- A frame that a module has heard, as it reports it. `float` reads both numbers. -/
structure Report (float : List Char → Option ρ) where
  frame : Bytes UInt8
  address : List Char
  rssi : List Char
  snr : List Char
  rssiValue : ρ
  snrValue : ρ
  isFieldChar : ∀ c ∈ address ++ rssi ++ snr, IsFieldChar c
  float_rssi : float rssi = some rssiValue
  float_snr : float snr = some snrValue

namespace Report

/-- What the sender's module has transmitted, as text. -/
def payload (report : Report float) : List Char :=
  asText (Driver.rylr.transmits (Driver.rylr.command report.frame))

/-- `<len>` -/
def length (report : Report float) : List Char := (toString report.payload.length).toList

/-- `+RCV=<addr>,<len>,<hexdata>,<rssi>,<snr>` -/
def text (report : Report float) : List Char :=
  "+RCV=".toList ++ (report.address ++ ',' :: (report.length ++ ',' :: (report.payload ++
    ',' :: (report.rssi ++ ',' :: report.snr))))

def received (report : Report float) : ReceivedFrame ρ where
  data := report.frame
  rssi := some report.rssiValue
  snr := some report.snrValue

end Report

/-- A line that begins like a report, with these fields. -/
def fieldLine (fields : List (List Char)) : List Char := "+RCV=".toList ++ [','].intercalate fields

/-- A text that is no report: it begins like something else, or it lacks fields, or one of the three
that are read is no hex data or no number. -/
inductive Unreported (float : List Char → Option ρ) : List Char → Prop where
  | reply {text : List Char} (h : ¬ "+RCV=".toList <+: text) : Unreported float text
  | short {fields : List (List Char)} (hcomma : ∀ field ∈ fields, ',' ∉ field)
      (h : fields.length < 5) : Unreported float (fieldLine fields)
  | unreadable {address length hexData rssi snr : List Char} {rest : List (List Char)}
      (hcomma : ∀ field ∈ address :: length :: hexData :: (rest ++ [rssi, snr]), ',' ∉ field)
      (h : fromHex hexData = none ∨ float rssi = none ∨ float snr = none) :
      Unreported float (fieldLine (address :: length :: hexData :: (rest ++ [rssi, snr])))

/-- Any other line of a module, with the white space around it: another reply, what is left of a
report, a report with a field that cannot be read. -/
def Noise (float : List Char → Option ρ) : Type :=
  {line : Bytes UInt8 // (0x0A : UInt8) ∉ line ∧ Unreported float (strip (decodeUtf8 line))}

/-- A line of a module, without its newline. -/
def moduleLine (item : Report float ⊕ Noise float) : Bytes UInt8 :=
  match item with
  | .inl report => (report.text ++ ['\r']).map fun c => c.toNat.toUInt8
  | .inr noise => noise.val

/-! ### Reading them -/

lemma hexDigit_spec {n : ℕ} (h : n < 16) :
    IsFieldChar (Char.ofNat (hexDigit n).toNat) ∧
      hexValue (Char.ofNat (hexDigit n).toNat) = some n ∧
      isAsciiSpace (Char.ofNat (hexDigit n).toNat) = false := by
  have hall : ∀ n < 16, (0x21 ≤ (Char.ofNat (hexDigit n).toNat).toNat ∧
      (Char.ofNat (hexDigit n).toNat).toNat ≤ 0x7E ∧ Char.ofNat (hexDigit n).toNat ≠ ',') ∧
      hexValue (Char.ofNat (hexDigit n).toNat) = some n ∧
      isAsciiSpace (Char.ofNat (hexDigit n).toNat) = false := by decide
  exact hall n h

/-- Upper-case digits read as the frame. -/
lemma fromHex_asText_hexUpper (frame : Bytes UInt8) :
    fromHex (asText (hexUpper frame)) = some frame := by
  induction frame with
  | nil => rfl
  | cons byte frame ih =>
    have hlt : byte.toNat < 256 := byte.toNat_lt
    obtain ⟨-, hhigh, hspace⟩ := hexDigit_spec (n := byte.toNat / 16) (by omega)
    obtain ⟨-, hlow, -⟩ := hexDigit_spec (n := byte.toNat % 16) (by omega)
    have hoctet : UInt8.ofNat (16 * (byte.toNat / 16) + byte.toNat % 16) = byte := by
      rw [Nat.div_add_mod, UInt8.ofNat_toNat]
    show fromHex (Char.ofNat (hexDigit (byte.toNat / 16)).toNat ::
      Char.ofNat (hexDigit (byte.toNat % 16)).toNat :: asText (hexUpper frame)) = _
    rw [fromHex, hspace, if_neg Bool.false_ne_true, hhigh, ih]
    simp only [hlow, Option.bind_eq_bind, Option.bind_some, hoctet]
    rfl

lemma decodeUtf8_ascii {text : List Char} (h : ∀ c ∈ text, c.toNat < 0x80) :
    decodeUtf8 (text.map fun c => c.toNat.toUInt8) = text := by
  induction text with
  | nil => rfl
  | cons c text ih =>
    obtain ⟨hc, htext⟩ := List.forall_mem_cons.mp h
    rw [List.map_cons]
    show decodeUtf8 (UInt8.ofNat c.toNat :: _) = _
    rw [decodeUtf8_one hc, ih htext, Char.ofNat_toNat]

lemma strip_eq {text : List Char} (hne : text ≠ []) (h : ∀ c ∈ text, isSpace c = false) :
    strip (text ++ ['\r']) = text := by
  have hleft : (text ++ ['\r']).dropWhile isSpace = text ++ ['\r'] := by
    obtain ⟨c, text, rfl⟩ := List.exists_cons_of_ne_nil hne
    rw [List.cons_append, List.dropWhile_cons_of_neg]
    rw [h c List.mem_cons_self]
    exact Bool.false_ne_true
  rw [strip, hleft, List.rdropWhile_concat_pos _ _ _ (by decide), List.rdropWhile_eq_self_iff]
  intro hl
  rw [h _ (List.getLast_mem hl)]
  exact Bool.false_ne_true

namespace Report

variable (report : Report float)

lemma isFieldChar_of_mem_payload {c : Char} (h : c ∈ report.payload) : IsFieldChar c := by
  rw [payload, transmits_rylr] at h
  obtain ⟨digit, hdigit, rfl⟩ := List.mem_map.mp h
  obtain ⟨byte, -, hdigit⟩ := List.mem_flatMap.mp hdigit
  have hlt : byte.toNat < 256 := byte.toNat_lt
  rcases List.mem_pair.mp hdigit with rfl | rfl
  · exact (hexDigit_spec (by omega)).1
  · exact (hexDigit_spec (by omega)).1

/-- A number is written in digits. -/
lemma isFieldChar_of_mem_length {c : Char} (h : c ∈ report.length) : IsFieldChar c := by
  have hdigits : c ∈ Nat.toDigits 10 report.payload.length := by
    rwa [length, Nat.toString_eq_repr, Nat.repr, String.toList_ofList] at h
  obtain ⟨hlow, hhigh⟩ := Char.isDigit_iff_toNat.mp
    (Nat.isDigit_of_mem_toDigits (by decide) (by decide) hdigits)
  have hlow' : 48 ≤ c.toNat := hlow
  have hhigh' : c.toNat ≤ 57 := hhigh
  refine ⟨by omega, by omega, ?_⟩
  rintro rfl
  exact absurd hlow' (by decide)

lemma printable_of_mem_text {c : Char} (h : c ∈ report.text) :
    0x21 ≤ c.toNat ∧ c.toNat ≤ 0x7E := by
  have hfield : ∀ c, c ∈ report.address ∨ c ∈ report.length ∨ c ∈ report.payload ∨
      c ∈ report.rssi ∨ c ∈ report.snr → IsFieldChar c := by
    rintro c (hc | hc | hc | hc | hc)
    · exact report.isFieldChar c (by simp [hc])
    · exact report.isFieldChar_of_mem_length hc
    · exact report.isFieldChar_of_mem_payload hc
    · exact report.isFieldChar c (by simp [hc])
    · exact report.isFieldChar c (by simp [hc])
  have hrest : c ∈ ',' :: "+RCV=".toList ∨ IsFieldChar c := by
    simp only [text, List.mem_append, List.mem_cons] at h
    grind
  rcases hrest with hrest | ⟨hlow, hhigh, -⟩
  · have hall : ((',' :: "+RCV=".toList).all fun c => 0x21 ≤ c.toNat ∧ c.toNat ≤ 0x7E) = true := by
      decide
    exact of_decide_eq_true (List.all_eq_true.mp hall c hrest)
  · exact ⟨hlow, hhigh⟩

lemma splitOn_fields :
    (report.text.drop "+RCV=".length).splitOn ',' =
      [report.address, report.length, report.payload, report.rssi, report.snr] := by
  have hgiven : ∀ text : List Char, (∀ c ∈ text, c ∈ report.address ++ report.rssi ++ report.snr) →
      ',' ∉ text := fun text htext hcomma => (report.isFieldChar _ (htext _ hcomma)).2.2 rfl
  have hlength : ',' ∉ report.length := fun h => (report.isFieldChar_of_mem_length h).2.2 rfl
  have hpayload : ',' ∉ report.payload := fun h => (report.isFieldChar_of_mem_payload h).2.2 rfl
  show (report.address ++ ',' :: (report.length ++ ',' :: (report.payload ++
    ',' :: (report.rssi ++ ',' :: report.snr)))).splitOn ',' = _
  rw [List.splitOn_append_cons_self_of_not_mem (hgiven _ fun c hc => by simp [hc]),
    List.splitOn_append_cons_self_of_not_mem hlength,
    List.splitOn_append_cons_self_of_not_mem hpayload,
    List.splitOn_append_cons_self_of_not_mem (hgiven _ fun c hc => by simp [hc]),
    List.splitOn_eq_singleton (hgiven _ fun c hc => by simp [hc])]

/-- A report reads as the frame and the two numbers. -/
lemma parse_text : parseRylrLine float report.text = some report.received := by
  have hstart : "+RCV=".toList.isPrefixOf report.text = true :=
    List.isPrefixOf_iff_prefix.mpr (List.prefix_append _ _)
  have hhex : fromHex report.payload = some report.frame := by
    rw [payload, transmits_rylr, fromHex_asText_hexUpper]
  rw [parseRylrLine, if_pos hstart, report.splitOn_fields]
  simp [report.float_rssi, report.float_snr, hhex, received]

end Report

lemma isPrefixOf_fieldLine (fields : List (List Char)) :
    "+RCV=".toList.isPrefixOf (fieldLine fields) = true :=
  List.isPrefixOf_iff_prefix.mpr (List.prefix_append _ _)

/-- The fields of a line, as the parser takes them apart. -/
lemma splitOn_fieldLine {fields : List (List Char)} (hne : fields ≠ [])
    (hcomma : ∀ field ∈ fields, ',' ∉ field) :
    ((fieldLine fields).drop "+RCV=".length).splitOn ',' = fields := by
  have hdrop : (fieldLine fields).drop "+RCV=".length = [','].intercalate fields := rfl
  rw [hdrop, List.splitOn_intercalate ',' hcomma hne]

/-- What is no report is dropped. -/
lemma Unreported.parse {text : List Char} (h : Unreported float text) :
    parseRylrLine float text = none := by
  cases h with
  | reply h =>
    rw [parseRylrLine, if_neg]
    exact fun hstart => h (List.isPrefixOf_iff_prefix.mp hstart)
  | @short fields hcomma h =>
    rw [parseRylrLine, if_pos (isPrefixOf_fieldLine fields)]
    apply if_pos
    by_cases hne : fields = []
    · subst hne
      decide
    · rwa [splitOn_fieldLine hne hcomma]
  | @unreadable address length hexData rssi snr rest hcomma h =>
    have hlen : (address :: length :: hexData :: (rest ++ [rssi, snr])).length =
        rest.length + 5 := by simp
    -- the third field from the front, and the last two
    have hrssi : (address :: length :: hexData :: (rest ++ [rssi, snr])).getD
        (rest.length + 5 - 2) [] = rssi := by simp [List.getD]
    have hsnr : (address :: length :: hexData :: (rest ++ [rssi, snr])).getD
        (rest.length + 5 - 1) [] = snr := by simp [List.getD]
    rw [parseRylrLine, if_pos (isPrefixOf_fieldLine _),
      splitOn_fieldLine (List.cons_ne_nil _ _) hcomma]
    simp only [hlen, hrssi, hsnr]
    rw [if_neg (by omega)]
    rcases h with h | h | h
    · simp [h]
    · simp [h]
    · simp [h]

lemma newline_not_mem_moduleLine (item : Report float ⊕ Noise float) :
    (0x0A : UInt8) ∉ moduleLine item := by
  rcases item with report | noise
  · intro hmem
    obtain ⟨c, hc, hnewline⟩ := List.mem_map.mp hmem
    have hnat : c.toNat % 256 = 10 := by
      have := congrArg UInt8.toNat hnewline
      simpa using this
    rcases List.mem_append.mp hc with hc | hc
    · obtain ⟨hlow, hhigh⟩ := report.printable_of_mem_text hc
      omega
    · obtain rfl := List.mem_singleton.mp hc
      exact absurd hnat (by decide)
  · exact noise.2.1

/-- What the parser makes of the line of a module. -/
lemma parse_moduleLine (item : Report float ⊕ Noise float) :
    parseRylrLine float (strip (decodeUtf8 (moduleLine item))) =
      item.getLeft?.map Report.received := by
  rcases item with report | noise
  · have hascii : ∀ c ∈ report.text ++ ['\r'], c.toNat < 0x80 := by
      intro c hc
      rcases List.mem_append.mp hc with hc | hc
      · obtain ⟨-, hhigh⟩ := report.printable_of_mem_text hc
        omega
      · obtain rfl := List.mem_singleton.mp hc
        decide
    have hspace : ∀ c ∈ report.text, isSpace c = false := by
      intro c hc
      obtain ⟨hlow, hhigh⟩ := report.printable_of_mem_text hc
      rw [isSpace, decide_eq_false_iff_not]
      simp only [List.mem_cons, List.not_mem_nil, or_false]
      omega
    show parseRylrLine float (strip (decodeUtf8
      ((report.text ++ ['\r']).map fun c => c.toNat.toUInt8))) = _
    have hne : report.text ≠ [] := List.append_ne_nil_of_left_ne_nil (by decide) _
    rw [decodeUtf8_ascii hascii, strip_eq hne hspace, report.parse_text]
    rfl
  · exact noise.2.2.parse

namespace LoRaReceiver

/-- While a module writes reports and other lines, in any order and cut into reads anyhow, the
frames that it reports arrive in order and once each, with what it says of the signal, and nothing
else does. Once it has all been read, none is missing. -/
theorem hears_reports (clock : ℕ → ℚ) (items : List (Report float ⊕ Noise float))
    {events : List ReceiverEvent}
    (hread : bytesRead events <+: joinLines 0x0A (items.map moduleLine)) :
    let r := run float clock .rylr events
    let reported := stamped clock (items.filterMap fun item => item.getLeft?.map Report.received)
    r.yielded ++ r.asyncQueue ++ r.rxQueue <+: reported ∧
      r.framesReceived = r.yielded.length + r.asyncQueue.length ∧
      (bytesRead events = joinLines 0x0A (items.map moduleLine) →
        r.yielded ++ r.asyncQueue ++ r.rxQueue = reported) := by
  intro r reported
  obtain ⟨hdriver, hreads⟩ := reads_run float clock .rylr events
  have hlines : ∀ line ∈ items.map moduleLine, (0x0A : UInt8) ∉ line := by
    intro line hline
    obtain ⟨item, -, rfl⟩ := List.mem_map.mp hline
    exact newline_not_mem_moduleLine item
  -- line by line, a report is parsed and anything else is dropped
  have hsplit := splitLines_joinLines hlines List.not_mem_nil
  rw [List.append_nil] at hsplit
  have hall : (Driver.rylr.scan float ({}, []) (joinLines 0x0A (items.map moduleLine))).1 =
      items.filterMap fun item => item.getLeft?.map Report.received := by
    show ((splitLines 0x0A (joinLines 0x0A (items.map moduleLine))).1.filterMap fun line =>
      parseRylrLine float (strip (decodeUtf8 line))) = _
    rw [hsplit, List.filterMap_map]
    exact List.filterMap_congr fun item _ => parse_moduleLine item
  have hframes := hreads.frames
  rw [hdriver] at hframes
  refine ⟨?_, hreads.framesReceived, fun heq => ?_⟩
  · -- what has been read is a prefix, and so are its frames
    obtain ⟨rest, hrest⟩ := hread
    rw [← hrest, Driver.scan_append] at hall
    show _ <+: stamped clock _
    rw [hframes, ← hall, stamped, stamped, List.mapIdx_append]
    exact List.prefix_append _ _
  · show _ = stamped clock _
    rw [hframes, heq, hall]

/-! ### A run -/

/-- What `float` does with a number of one digit. -/
def readDigit : List Char → Option ℤ
  | ['-', c] => if c.isDigit then some (-(c.toNat - 48)) else none
  | [c] => if c.isDigit then some (c.toNat - 48) else none
  | _ => none

/-- Two octets, heard from node 1. -/
def someReport : Report readDigit where
  frame := [0x01, 0xAB]
  address := ['1']
  rssi := ['-', '7']
  snr := ['5']
  rssiValue := -7
  snrValue := 5
  isFieldChar := by
    have hall : (['1', '-', '7', '5'].all fun c => IsFieldChar c) = true := by decide
    exact fun c hc => of_decide_eq_true (List.all_eq_true.mp hall c hc)
  float_rssi := by decide
  float_snr := by decide

/-- The reply to a command. -/
def someReply : Noise readDigit :=
  ⟨ascii "+OK\r", by decide, .reply (by decide +kernel)⟩

/-- What is left of a report when its end was lost. -/
def someRest : Noise readDigit where
  val := ascii "+RCV=1,4,01\r"
  property := by
    refine ⟨by decide, ?_⟩
    have hline : strip (decodeUtf8 (ascii "+RCV=1,4,01\r")) =
      fieldLine [['1'], ['4'], ['0', '1']] := by decide +kernel
    rw [hline]
    exact .short (by decide) (by decide)

/-- A report with a letter that is no hex digit. -/
def someGarbled : Noise readDigit where
  val := ascii "+RCV=1,2,0G,-7,5\r"
  property := by
    refine ⟨by decide, ?_⟩
    have hline : strip (decodeUtf8 (ascii "+RCV=1,2,0G,-7,5\r")) =
      fieldLine (['1'] :: ['2'] :: ['0', 'G'] :: ([] ++ [['-', '7'], ['5']])) := by
      decide +kernel
    rw [hline]
    exact .unreadable (by decide) (.inl (by decide))

def someItems : List (Report readDigit ⊕ Noise readDigit) :=
  [.inr someReply, .inr someRest, .inl someReport, .inr someGarbled, .inl someReport]

/-- The lines are read in pieces that end in the middle of a report, of a field and of a line end. -/
def someTurns : List ReceiverEvent :=
  [.read (ascii "+OK\r\n+RCV=1,4,01\r\n+RCV=1,4,01"), .pump,
    .read (ascii "AB,-7,5\r\n+RCV=1,2,0G,-7,5\r"), .pump, .take,
    .read (ascii "\n+RCV=1,4,01AB,-7,5\r\n")]

/-- One report has been handed over and one is queued; the other lines leave no trace. -/
theorem hears_reports_someTurns :
    let r := run readDigit (fun count => count) .rylr someTurns
    r.yielded ++ r.asyncQueue ++ r.rxQueue =
      [{ data := [0x01, 0xAB], rssi := some (-7), snr := some 5, timestamp := 0 },
        { data := [0x01, 0xAB], rssi := some (-7), snr := some 5, timestamp := 1 }] := by
  have hread : bytesRead someTurns = joinLines 0x0A (someItems.map moduleLine) := by
    decide +kernel
  exact (hears_reports (fun count => (count : ℚ)) someItems
    (show bytesRead someTurns <+: _ from hread ▸ List.prefix_rfl)).2.2 hread

end LoRaReceiver

end Chatbit
