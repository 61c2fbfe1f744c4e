import Kikimora.Lib.Search
import Kikimora.Lib.Utf8

/-!
# Redaction of the client's log

The output of the OpenConnect client is forwarded line by line, and a line that names a
sensitive header is cut behind it. The header is looked for in a lower-cased copy of the
line, whose positions need not be those of the line, and the headers are tried in the
order of a list, whatever their order in the line.
-/

namespace Kikimora.Toad

open Lib

-- === The writer ===

def ascii (s : String) : List UInt8 := s.toList.map fun c => .ofNat c.toNat

def newline : UInt8 := 0x0A

/-- `unicode.ToLower`, of which only the ASCII part matters. -/
structure LowerMap where
  lower : Nat → Nat
  ascii : ∀ r < 0x80, lower r = if 0x41 ≤ r ∧ r ≤ 0x5A then r + 0x20 else r

def toLower (m : LowerMap) (text : List UInt8) : List UInt8 := mapRunes m.lower 0 text

def proxyAuthorization : List UInt8 := ascii "proxy-authorization:"

def sensitiveHeaders : List (List UInt8) :=
  [proxyAuthorization, ascii "authorization:", ascii "set-cookie:", ascii "cookie:"]

def redactedMark : List UInt8 := ascii " <redacted>"

def lineEnd (line : List UInt8) : List UInt8 :=
  if line.getLast? = some newline then [newline] else []

def cutAt (m : LowerMap) (line : List UInt8) : Option Nat :=
  sensitiveHeaders.findSome? fun header =>
    (index header (toLower m line)).map (· + header.length)

/-- `redactOpenConnectLogLine`; `none` is the panic of a slice past the end of the line. -/
def redactLine (m : LowerMap) (line : List UInt8) : Option (List UInt8) :=
  match cutAt m line with
  | none => some line
  | some cut =>
    if cut ≤ line.length then some (line.take cut ++ redactedMark ++ lineEnd line) else none

def forward (m : LowerMap) : List (List UInt8) → Option (List UInt8)
  | [] => some []
  | line :: lines =>
    (redactLine m line).bind fun out => (forward m lines).map (out ++ ·)

/-- A `redactingLineWriter` and what its destination has got. -/
structure LineWriter where
  pending : List UInt8 := []
  dst : List UInt8 := []

namespace LineWriter

def write (m : LowerMap) (w : LineWriter) (p : List UInt8) : Option LineWriter :=
  let (lines, rest) := splitLines newline (w.pending ++ p)
  (forward m lines).map fun out => { pending := rest, dst := w.dst ++ out }

def flush (m : LowerMap) (w : LineWriter) : Option LineWriter :=
  if w.pending = [] then some w
  else (redactLine m w.pending).map fun out => { pending := [], dst := w.dst ++ out }

end LineWriter

def runWriter (m : LowerMap) (chunks : List (List UInt8)) : Option (List UInt8) :=
  ((chunks.foldlM (LineWriter.write m) {}).bind (LineWriter.flush m)).map LineWriter.dst

-- === What must not be seen ===

def asciiLower (b : UInt8) : UInt8 := if 0x41 ≤ b ∧ b ≤ 0x5A then b + 0x20 else b

def headerEndsAt (line : List UInt8) (e : Nat) : Bool :=
  sensitiveHeaders.any fun header => header.isSuffixOf ((line.take e).map asciiLower)

def headerEnd (line : List UInt8) : Option Nat :=
  (List.range (line.length + 1)).find? (headerEndsAt line)

def eraseLine (line : List UInt8) : List UInt8 :=
  match headerEnd line with
  | none => line
  | some e => line.take e ++ lineEnd line

def streamLines (stream : List UInt8) : List (List UInt8) :=
  (splitLines newline stream).1 ++ [(splitLines newline stream).2]

def eraseStream (stream : List UInt8) : List UInt8 := ((streamLines stream).map eraseLine).flatten

/-- What has to be forwarded of a line: nothing that stands behind the earliest header, and
    the mark in its place. -/
def markLine (line : List UInt8) : List UInt8 :=
  match headerEnd line with
  | none => line
  | some e => line.take e ++ redactedMark ++ lineEnd line

def markStream (stream : List UInt8) : List UInt8 := ((streamLines stream).map markLine).flatten

/-- The redaction of a stream. However it is written, what is forwarded is the erased stream
    with the mark behind each header, and lines without a header are forwarded as they are. -/
structure Redacts (m : LowerMap) (stream : List UInt8) : Prop where
  output : ∀ chunks, chunks.flatten = stream →
    runWriter m chunks = some (markStream (eraseStream stream))
  unchanged : ∀ line ∈ streamLines stream, headerEnd line = none → redactLine m line = some line

/-- The condition on a line and its lower-cased copy. Of the headers in the copy, the one
    that is tried first ends there for the first time where the earliest header of the line
    ends. The copy of a line without a header has none either. -/
def SafeLine (m : LowerMap) (line : List UInt8) : Prop :=
  match headerEnd line with
  | some e => ∃ tried header rest i, sensitiveHeaders = tried ++ header :: rest ∧
      (∀ other ∈ tried, ¬ other <:+: toLower m line) ∧
      index header (toLower m line) = some i ∧ i + header.length = e
  | none => ∀ header ∈ sensitiveHeaders, ¬ header <:+: toLower m line

-- === The writer forwards the lines of the stream ===

variable {m : LowerMap}

theorem forward_append (a b : List (List UInt8)) :
    forward m (a ++ b) = (forward m a).bind fun x => (forward m b).map (x ++ ·) := by
  induction a with
  | nil => simp [forward]
  | cons line a ih =>
    simp only [List.cons_append, forward, ih]
    rcases redactLine m line with _ | x
    · rfl
    rcases forward m a with _ | y
    · rfl
    · rcases forward m b with _ | z
      · rfl
      · simp

theorem foldlM_write (chunks : List (List UInt8)) :
    ∀ w : LineWriter, newline ∉ w.pending →
      chunks.foldlM (LineWriter.write m) w =
        (forward m (splitLines newline (w.pending ++ chunks.flatten)).1).map fun out =>
          { pending := (splitLines newline (w.pending ++ chunks.flatten)).2
            dst := w.dst ++ out } := by
  induction chunks with
  | nil =>
    intro w hw
    simp [splitLines_of_not_mem hw, forward]
  | cons chunk chunks ih =>
    intro w hw
    rw [List.foldlM_cons, List.flatten_cons, ← List.append_assoc, splitLines_append newline,
      forward_append]
    simp only [LineWriter.write]
    rcases hlines : forward m (splitLines newline (w.pending ++ chunk)).1 with _ | out
    · rfl
    have hrest := (splitLines_spec newline (w.pending ++ chunk)).2.1
    refine (ih _ hrest).trans ?_
    rcases forward m _ with _ | more
    · rfl
    · simp

theorem redactLine_nil : redactLine m [] = some [] := rfl

theorem runWriter_eq (chunks : List (List UInt8)) :
    runWriter m chunks = forward m (streamLines chunks.flatten) := by
  rw [runWriter, foldlM_write chunks {} List.not_mem_nil, streamLines, forward_append]
  simp only [List.nil_append]
  rcases forward m (splitLines newline chunks.flatten).1 with _ | out
  · rfl
  by_cases hrest : (splitLines newline chunks.flatten).2 = []
  · simp [LineWriter.flush, hrest, forward, redactLine_nil]
  simp only [Option.map_some, Option.bind_some, LineWriter.flush, hrest, if_false, forward]
  rcases redactLine m (splitLines newline chunks.flatten).2 with _ | last
  · rfl
  · simp

-- === Lines and streams ===

def IsLine (line : List UInt8) : Prop := ∃ body, newline ∉ body ∧ line = body ++ lineEnd line

variable {line line' body : List UInt8} {lines : List (List UInt8)} {e : Nat}

theorem lineEnd_cases (line : List UInt8) : lineEnd line = [newline] ∨ lineEnd line = [] := by
  unfold lineEnd
  split
  · exact .inl rfl
  · exact .inr rfl

theorem lineEnd_of_not_mem (h : newline ∉ line) : lineEnd line = [] :=
  if_neg fun hlast => h (List.mem_of_getLast? hlast)

theorem lineEnd_append_newline (body : List UInt8) : lineEnd (body ++ [newline]) = [newline] := by
  simp [lineEnd]

theorem lineEnd_append (h : newline ∉ body) (line : List UInt8) :
    lineEnd (body ++ lineEnd line) = lineEnd line := by
  rcases lineEnd_cases line with hend | hend
  · rw [hend, lineEnd_append_newline]
  · rw [hend, List.append_nil, lineEnd_of_not_mem h]

theorem isLine_append (h : newline ∉ body) (line : List UInt8) : IsLine (body ++ lineEnd line) :=
  ⟨body, h, by rw [lineEnd_append h]⟩

theorem isLine_of_terminated (h : Terminated newline line) :
    IsLine line ∧ lineEnd line = [newline] := by
  obtain ⟨body, hbody, rfl⟩ := h
  exact ⟨⟨body, hbody, by rw [lineEnd_append_newline]⟩, lineEnd_append_newline body⟩

theorem terminated_of_isLine (h : IsLine line) (hend : lineEnd line = [newline]) :
    Terminated newline line := by
  obtain ⟨body, hbody, heq⟩ := h
  exact ⟨body, hbody, hend ▸ heq⟩

theorem not_mem_of_isLine (h : IsLine line) (hend : lineEnd line = []) : newline ∉ line := by
  obtain ⟨body, hbody, heq⟩ := h
  rw [hend, List.append_nil] at heq
  exact heq ▸ hbody

def Lines (lines : List (List UInt8)) : Prop :=
  ∃ init last, lines = init ++ [last] ∧ (∀ line ∈ init, Terminated newline line) ∧ newline ∉ last

theorem lines_streamLines (stream : List UInt8) : Lines (streamLines stream) := by
  obtain ⟨hinit, hlast, -⟩ := splitLines_spec newline stream
  exact ⟨_, _, rfl, hinit, hlast⟩

theorem streamLines_flatten (h : Lines lines) : streamLines lines.flatten = lines := by
  obtain ⟨init, last, rfl, hinit, hlast⟩ := h
  rw [streamLines, List.flatten_append, List.flatten_singleton, splitLines_join hinit hlast]

theorem Lines.isLine (h : Lines lines) (hline : line ∈ lines) : IsLine line := by
  obtain ⟨init, last, rfl, hinit, hlast⟩ := h
  rcases List.mem_append.mp hline with hline | hline
  · exact (isLine_of_terminated (hinit line hline)).1
  · rw [List.mem_singleton.mp hline]
    exact ⟨last, hlast, by rw [lineEnd_of_not_mem hlast, List.append_nil]⟩

-- === Headers ===

theorem headerEnd_eq_some_iff : headerEnd line = some e ↔
    headerEndsAt line e = true ∧ e ≤ line.length ∧ ∀ j < e, headerEndsAt line j = false := by
  simp only [headerEnd, List.find?_range_eq_some, List.mem_range, Nat.lt_succ_iff,
    Bool.not_eq_true']

theorem headerEnd_take_append (h : headerEnd line = some e) (x : List UInt8) :
    headerEnd (line.take e ++ x) = some e := by
  obtain ⟨hends, hle, hfirst⟩ := headerEnd_eq_some_iff.mp h
  have hlength : (line.take e).length = e := List.length_take_of_le hle
  have htake : ∀ j ≤ e, headerEndsAt (line.take e ++ x) j = headerEndsAt line j := by
    intro j hj
    simp only [headerEndsAt, List.take_append_of_le_length (hlength.symm ▸ hj), List.take_take,
      min_eq_left hj]
  refine headerEnd_eq_some_iff.mpr ⟨by rw [htake e le_rfl, hends], ?_, fun j hj => ?_⟩
  · rw [List.length_append, hlength]
    omega
  · rw [htake j hj.le, hfirst j hj]

theorem eq_colon_of_asciiLower {c : UInt8} (h : asciiLower c = 0x3A) : c = 0x3A := by
  unfold asciiLower at h
  split at h
  · rename_i hc
    have h1 : 0x41 ≤ c.toNat := hc.1
    have h2 : c.toNat ≤ 0x5A := hc.2
    have h3 := congrArg UInt8.toNat h
    rw [UInt8.toNat_add] at h3
    simp only [UInt8.reduceToNat] at h3
    omega
  · exact h

theorem exists_colon (h : headerEnd line = some e) : ∃ q, line.take e = q ++ [0x3A] := by
  have hcolon : ∀ header ∈ sensitiveHeaders, header.getLast? = some 0x3A := by decide
  obtain ⟨hends, -, -⟩ := headerEnd_eq_some_iff.mp h
  obtain ⟨header, hheader, hsuffix⟩ := List.any_eq_true.mp hends
  obtain ⟨front, hfront⟩ := List.getLast?_eq_some_iff.mp (hcolon header hheader)
  obtain ⟨t, ht⟩ := List.isSuffixOf_iff_suffix.mp hsuffix
  rw [hfront, ← List.append_assoc] at ht
  obtain ⟨q, r, hq, -, hr⟩ := List.map_eq_append_iff.mp ht.symm
  obtain ⟨c, rfl, hc⟩ := List.map_eq_singleton_iff.mp hr
  exact ⟨q, by rw [hq, eq_colon_of_asciiLower hc]⟩

theorem eraseLine_of_none (h : headerEnd line = none) : eraseLine line = line := by
  simp only [eraseLine, h]

theorem eraseLine_of_some (h : headerEnd line = some e) :
    eraseLine line = line.take e ++ lineEnd line := by
  simp only [eraseLine, h]

theorem headerEnd_eraseLine (line : List UInt8) : headerEnd (eraseLine line) = headerEnd line := by
  rcases h : headerEnd line with _ | e
  · rw [eraseLine_of_none h, h]
  · rw [eraseLine_of_some h, headerEnd_take_append h]

theorem newline_not_mem_take (hline : IsLine line) (h : headerEnd line = some e) :
    newline ∉ line.take e := by
  obtain ⟨body, hbody, heq⟩ := hline
  obtain ⟨q, hq⟩ := exists_colon h
  obtain ⟨-, hle, -⟩ := headerEnd_eq_some_iff.mp h
  by_cases he : e ≤ body.length
  · rw [heq, List.take_append_of_le_length he]
    exact fun hmem => hbody (List.mem_of_mem_take hmem)
  -- the header would end with the newline
  rcases lineEnd_cases line with hend | hend
  · have htake : line.take e = body ++ [newline] := by
      rw [heq, hend, List.take_of_length_le (by simp; omega)]
    have := List.append_inj_right' (htake.symm.trans hq) rfl
    exact absurd this (by decide)
  · rw [hend, List.append_nil] at heq
    rw [heq] at hle
    omega

theorem isLine_eraseLine (h : IsLine line) :
    IsLine (eraseLine line) ∧ lineEnd (eraseLine line) = lineEnd line := by
  rcases he : headerEnd line with _ | e
  · rw [eraseLine_of_none he]
    exact ⟨h, rfl⟩
  · have hmem := newline_not_mem_take h he
    rw [eraseLine_of_some he]
    exact ⟨isLine_append hmem line, lineEnd_append hmem line⟩

theorem Lines.map_eraseLine (h : Lines lines) : Lines (lines.map eraseLine) := by
  have hisLine : ∀ line ∈ lines, IsLine line := fun line => h.isLine
  obtain ⟨init, last, rfl, hinit, hlast⟩ := h
  refine ⟨init.map eraseLine, eraseLine last, by simp, fun x hx => ?_, ?_⟩
  · obtain ⟨line, hline, rfl⟩ := List.mem_map.mp hx
    obtain ⟨hl, hend⟩ := isLine_of_terminated (hinit line hline)
    obtain ⟨hl', hend'⟩ := isLine_eraseLine hl
    exact terminated_of_isLine hl' (hend'.trans hend)
  · obtain ⟨hl', hend'⟩ := isLine_eraseLine (hisLine last (by simp))
    exact not_mem_of_isLine hl' (hend'.trans (lineEnd_of_not_mem hlast))

theorem markLine_eraseLine (h : IsLine line) : markLine (eraseLine line) = markLine line := by
  rcases he : headerEnd line with _ | e
  · rw [eraseLine_of_none he]
  have hlength : (line.take e).length = e :=
    List.length_take_of_le (headerEnd_eq_some_iff.mp he).2.1
  have htake : (eraseLine line).take e = line.take e := by
    rw [eraseLine_of_some he, List.take_left' hlength]
  simp only [markLine, headerEnd_eraseLine, he, htake, (isLine_eraseLine h).2]

/-- The mark can be set without what stands behind the headers. -/
theorem markStream_eraseStream (stream : List UInt8) :
    markStream (eraseStream stream) = markStream stream := by
  have hlines := lines_streamLines stream
  rw [markStream, eraseStream, streamLines_flatten hlines.map_eraseLine, List.map_map, markStream]
  congr 1
  exact List.map_congr_left fun line hline => markLine_eraseLine (hlines.isLine hline)

-- === Safe lines ===

theorem cutAt_eq_some_iff : cutAt m line = some e ↔
    ∃ tried header rest i, sensitiveHeaders = tried ++ header :: rest ∧
      (∀ other ∈ tried, ¬ other <:+: toLower m line) ∧
      index header (toLower m line) = some i ∧ i + header.length = e := by
  simp only [cutAt, List.findSome?_eq_some_iff, Option.map_eq_some_iff, Option.map_eq_none_iff,
    index_eq_none_iff]
  constructor
  · rintro ⟨tried, header, rest, hheaders, ⟨i, hi, he⟩, hnone⟩
    exact ⟨tried, header, rest, i, hheaders, hnone, hi, he⟩
  · rintro ⟨tried, header, rest, i, hheaders, hnone, hi, he⟩
    exact ⟨tried, header, rest, hheaders, ⟨i, hi, he⟩, hnone⟩

theorem cutAt_eq_none_iff : cutAt m line = none ↔
    ∀ header ∈ sensitiveHeaders, ¬ header <:+: toLower m line := by
  simp only [cutAt, List.findSome?_eq_none_iff, Option.map_eq_none_iff, index_eq_none_iff]

theorem safeLine_iff : SafeLine m line ↔ cutAt m line = headerEnd line := by
  unfold SafeLine
  cases headerEnd line with
  | none => exact cutAt_eq_none_iff.symm
  | some e => exact cutAt_eq_some_iff.symm

theorem encodeRune_lower (m : LowerMap) {b : UInt8} (h : b < 0x80) :
    encodeRune (m.lower b.toNat) = [asciiLower b] := by
  have hb : b.toNat < 0x80 := h
  have hlower : m.lower b.toNat = (asciiLower b).toNat ∧ (asciiLower b).toNat < 0x80 := by
    rw [m.ascii b.toNat hb]
    by_cases hupper : 0x41 ≤ b.toNat ∧ b.toNat ≤ 0x5A
    · have hsum : (b + 0x20).toNat = b.toNat + 0x20 := by
        rw [UInt8.toNat_add]
        simp only [UInt8.reduceToNat]
        omega
      rw [if_pos hupper, show asciiLower b = b + 0x20 from if_pos hupper, hsum]
      omega
    · rw [if_neg hupper, show asciiLower b = b from if_neg hupper]
      exact ⟨rfl, hb⟩
  rw [hlower.1, encodeRune, if_pos hlower.2, UInt8.ofNat_toNat]

/-- A line of ASCII bytes without a header is safe. -/
theorem safeLine_of_ascii (hascii : ∀ b ∈ line, b < 0x80) (h : headerEnd line = none) :
    SafeLine m line := by
  have hlower : toLower m line = line.map asciiLower := by
    rw [toLower, mapRunes_of_ascii hascii, List.map_eq_flatMap]
    exact List.flatMap_congr fun b hb => encodeRune_lower m (hascii b hb)
  rw [safeLine_iff, h, cutAt_eq_none_iff, hlower]
  rintro header hheader ⟨front, back, heq⟩
  -- the header would end somewhere in the line
  have hends : headerEndsAt line (front ++ header).length = true := by
    refine List.any_eq_true.mpr ⟨header, hheader, List.isSuffixOf_iff_suffix.mpr ?_⟩
    rw [List.map_take, ← heq, List.take_left]
    exact List.suffix_append front header
  have hlength := congrArg List.length heq
  rw [List.length_append, List.length_map] at hlength
  refine absurd hends (List.find?_eq_none.mp h _ (List.mem_range.mpr ?_))
  omega

theorem redactLine_of_safe (h : SafeLine m line) : redactLine m line = some (markLine line) := by
  rw [safeLine_iff] at h
  rcases he : headerEnd line with _ | e
  · simp only [redactLine, markLine, h, he]
  · simp only [redactLine, markLine, h, he, (headerEnd_eq_some_iff.mp he).2.1, if_true]

/-- Only a line that has the mark already is redacted without being safe. -/
theorem safeLine_of_redactLine (h : redactLine m line = some (markLine line)) :
    SafeLine m line ∨ redactedMark ++ lineEnd line <:+ line := by
  rw [safeLine_iff]
  simp only [redactLine, markLine] at h
  rcases hcut : cutAt m line with _ | cut <;> rcases he : headerEnd line with _ | e <;>
    simp only [hcut, he] at h
  · exact .inl rfl
  · exact .inr ⟨line.take e, by rw [← List.append_assoc, ← Option.some.inj h]⟩
  · split_ifs at h
    exact .inr ⟨line.take cut, by rw [← List.append_assoc, Option.some.inj h]⟩
  · split_ifs at h with hle
    have hlength := congrArg List.length (Option.some.inj h)
    simp only [List.length_append, List.length_take_of_le hle,
      List.length_take_of_le (headerEnd_eq_some_iff.mp he).2.1] at hlength
    exact .inl (congrArg some (by omega))

theorem forward_of_safe (h : ∀ line ∈ lines, SafeLine m line) :
    forward m lines = some (lines.map markLine).flatten := by
  induction lines with
  | nil => rfl
  | cons line lines ih =>
    rw [List.forall_mem_cons] at h
    simp [forward, redactLine_of_safe h.1, ih h.2]

/-- A stream of safe lines is redacted. -/
theorem log_redaction_of_safe (m : LowerMap) (stream : List UInt8)
    (h : ∀ line ∈ streamLines stream, SafeLine m line) : Redacts m stream where
  output chunks hchunks := by
    rw [runWriter_eq, hchunks, forward_of_safe h, markStream_eraseStream]
    rfl
  unchanged line hline hnone := by
    rw [redactLine_of_safe (h line hline), markLine, hnone]

/-- The ASCII letters and three letters whose lower case has another length: U+0130,
    U+023A and U+212A. -/
def sampleLower : LowerMap where
  lower r :=
    if 0x41 ≤ r ∧ r ≤ 0x5A then r + 0x20
    else if r = 0x130 then 0x69
    else if r = 0x23A then 0x2C65
    else if r = 0x212A then 0x6B
    else r
  ascii r hr := by
    split
    · rfl
    · rw [if_neg (by omega), if_neg (by omega), if_neg (by omega)]

/-- Ordinary header lines are redacted. -/
theorem log_redaction_ordinary :
    Redacts sampleLower (ascii ("Set-Cookie: a=b; Path=/\nConnected\n[time] Cookie: c=d\n" ++
      "Proxy-Authorization: Basic e\nAUTHORIZATION: Bearer f")) :=
  log_redaction_of_safe _ _ fun line hline => safeLine_iff.mpr (by
    revert line
    decide +kernel)

/-- A secret is forwarded when a header that is tried earlier follows it, and when a byte
    that is not UTF-8 or a letter whose lower case is longer stands before the header.
    With some more of these the slice panics. A line without a header is cut when a letter
    of it is lower-cased to an ASCII letter. -/
theorem log_redaction_leaks :
    (eraseStream (ascii "Cookie: a authorization:") = eraseStream (ascii "Cookie: b") ∧
      runWriter sampleLower [ascii "Cookie: a authorization:"] =
        some (ascii "Cookie: a authorization: <redacted>") ∧
      runWriter sampleLower [ascii "Cookie: b"] = some (ascii "Cookie: <redacted>")) ∧
    (runWriter sampleLower [0xFF :: ascii "Cookie: a"] =
        some (0xFF :: ascii "Cookie: a <redacted>") ∧
      runWriter sampleLower [0xFF :: ascii "Cookie: b"] =
        some (0xFF :: ascii "Cookie: b <redacted>") ∧
      runWriter sampleLower [0xC8 :: 0xBA :: ascii "Cookie:ab"] =
        some (0xC8 :: 0xBA :: ascii "Cookie:a <redacted>")) ∧
    runWriter sampleLower [0xFF :: ascii "Cookie:"] = none ∧
    (headerEnd (ascii "coo" ++ 0xE2 :: 0x84 :: 0xAA :: ascii "ie: ok") = none ∧
      runWriter sampleLower [ascii "coo" ++ 0xE2 :: 0x84 :: 0xAA :: ascii "ie: ok"] =
        some (ascii "coo" ++ 0xE2 :: 0x84 :: 0xAA :: ascii "i <redacted>")) := by
  decide +kernel

end Kikimora.Toad
