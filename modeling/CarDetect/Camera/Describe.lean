import CarDetect.Camera.RtspClient
import CarDetect.Lib.CString
import CarDetect.Lib.LineBuffer

/-!
# The answer to DESCRIBE

`rtspParseDescribeResponse` follows `rtsp_parse_describe_response` of `camera/rtsp.c`. The body is
read through a buffer of 256 bytes, and a line that is longer goes on in the next round as if it
were another line. The loops read characters and write arrays with the checks of `CString`, so that
a result without a fault has read no byte behind the terminating zero, has written none behind an
array, and has come to an end. `describe_ok` says that there is no fault for any response, and
`described_iff` for which of them the attributes come from whole lines.
-/

namespace CarDetect.Camera

open BigEndian ByteString CString LineBuffer

/-- The fields of `rtsp_session_t` that DESCRIBE sets. `controlFrom` and `payloadFrom` are not in
the source. They remember the pointer `p` of the round that stored the attribute. -/
structure Described where
  contentBase : Bytes
  controlAttr : Bytes
  setupUrl : Bytes
  payloadType : Int
  clockRate : Int
  controlFrom : Option Bytes
  payloadFrom : Option Bytes
deriving DecidableEq, Repr

/-- The fields as the function resets them. -/
def Described.reset : Described := ⟨[], [], [], 0, 0, none, none⟩

/-- The characters that `trim_spaces` removes in front. -/
def isSpaceTab (byte : UInt8) : Bool := byte == 32 || byte == 9

/-- The characters that `trim_spaces` removes at the end. -/
def isLineBlank (byte : UInt8) : Bool := byte == 13 || byte == 10 || byte == 32 || byte == 9

/-- `trim_spaces` -/
def trimSpaces (s : Bytes) : Except StringFault Bytes := do
  let s ← trimEnd isLineBlank s s.length
  let i ← skipWhile isSpaceTab s (s.length + 1) 0
  advance s i

/-- `starts_with` -/
def startsWith (s start : Bytes) : Bool := start.isPrefixOf s

/-- `%31[^/]/` of `sscanf`: the text behind the name and the slash. -/
def behindName (text : Bytes) : Option Bytes :=
  let enc := (text.takeWhile (· ≠ 47)).take 31
  if enc ≠ [] ∧ (text.drop enc.length).head? = some 47 then some (text.drop enc.length).tail
  else none

/-- `sscanf(val, "%d %31[^/]/%d", &pt, enc, &clock) == 3`, with the two numbers. -/
def scanRtpmap (val : Bytes) : Option (Int × Int) := do
  let pt ← scanInt val
  let rest ← behindName (pt.2.dropWhile isspace)
  let clock ← scanInt rest
  pure (pt.1, clock.1)

/-- What is stored for `a=rtpmap:`, if `sscanf` has found the numbers. -/
def storeRtpmap (session : Described) (p : Bytes) : Option (Int × Int) → Described
  | some numbers =>
      { session with
        payloadType := numbers.1, clockRate := numbers.2, payloadFrom := some p }
  | none => session

/-- What a round does with the line that it read at `p`. -/
def storeLine (session : Described) (p line : Bytes) : Except StringFault Described := do
  let first ← charAt line 0
  if first = 0 then pure session
  else if startsWith line (ascii "a=control:") then
    let ctrl ← advance line 10
    let ctrl ← trimSpaces ctrl
    pure { session with controlAttr := (snprintf 256 ctrl).kept, controlFrom := some p }
  else if startsWith line (ascii "a=rtpmap:") then
    let val ← advance line 9
    pure (storeRtpmap session p (scanRtpmap val))
  else pure session

/-- The copy of a line, trimmed, and the pointer to what follows. -/
def readLine (p : Bytes) : Except StringFault (Bytes × Bytes) := do
  let line ← copyString 10 256 p
  let byte ← charAt p line.length
  let next ← advance p (if byte = 10 then line.length + 1 else line.length)
  let line ← trimSpaces line
  pure (line, next)

/-- `while (*p)`, for less than `fuel` rounds. -/
def lineLoop : Nat → Bytes → Described → Except StringFault Described
  | 0, _, _ => .error .endless
  | fuel + 1, p, session => do
      let byte ← charAt p 0
      if byte = 0 then pure session
      else
        let round ← readLine p
        let session ← storeLine session p round.1
        lineLoop fuel round.2 session

/-- The value of `Content-Base`, if the response has one. -/
def parseContentBase (response : Bytes) : Except StringFault Bytes :=
  match find (ascii "Content-Base:") response with
  | none => .ok []
  | some k => do
      let cb ← advance response (k + 13)
      let i ← skipWhile (· == 32) cb (cb.length + 1) 0
      let cb ← advance cb i
      let line ← copyString 13 512 cb
      let line ← trimSpaces line
      pure (snprintf 512 line).kept

/-- Whether a slash belongs between the base and the control attribute. -/
def needSlash (base ctrl : Bytes) : Except StringFault Bool :=
  if base = [] then pure false
  else do
    let last ← charAt base (base.length - 1)
    let first ← charAt ctrl 0
    pure (last ≠ 47 && first ≠ 0 && first ≠ 47)

/-- `build_setup_url` -/
def buildSetupUrl (session : Described) (requestUrl : Bytes) : Except StringFault Bytes := do
  let base := if session.contentBase = [] then requestUrl else session.contentBase
  let ctrl := session.controlAttr
  if startsWith ctrl (ascii "rtsp://") then pure (snprintf 512 ctrl).kept
  else
    let slash ← needSlash base ctrl
    pure (snprintf 512 (base ++ (if slash then ascii "/" else []) ++ ctrl)).kept

/-- `rtsp_parse_describe_response`, for strings and not null pointers. -/
def rtspParseDescribeResponse (requestUrl response : Bytes) :
    Except StringFault (Described × Int) :=
  match find (ascii "\r\n\r\n") response with
  | none => .ok (.reset, -1)
  | some k => do
      let body ← advance response (k + 4)
      let contentBase ← parseContentBase response
      let session ← lineLoop (body.length + 1) body { Described.reset with contentBase }
      let setupUrl ← buildSetupUrl session requestUrl
      pure ({ session with setupUrl }, 0)

/-! ## The property -/

/-- A string without its terminating zero. -/
abbrev CString := {text : Bytes // 0 ∉ text}

/-- The body of a response. -/
def sdpOf (response : Bytes) : Bytes :=
  match find (ascii "\r\n\r\n") response with
  | none => []
  | some k => response.drop (k + 4)

/-- The text between the blanks at the ends of a line. -/
def trimmed (line : Bytes) : Bytes := (line.rdropWhile isLineBlank).dropWhile isSpaceTab

/-- The control attribute of a line, cut to the size of `control_attr`. -/
def controlOf (line : Bytes) : Option Bytes :=
  if startsWith (trimmed line) (ascii "a=control:") then
    some ((trimmed ((trimmed line).drop 10)).take 255)
  else none

/-- The payload type and the clock rate of a line. -/
def rtpmapOf (line : Bytes) : Option (Int × Int) :=
  if startsWith (trimmed line) (ascii "a=control:") then none
  else if startsWith (trimmed line) (ascii "a=rtpmap:") then scanRtpmap ((trimmed line).drop 9)
  else none

/-- The payload type of a line. -/
def payloadOf (line : Bytes) : Option Int := (rtpmapOf line).map Prod.fst

/-- The last line of the body with an attribute: the place where it begins, and the attribute. -/
def lastLine {β : Type} (mark : Bytes → Option β) (body : Bytes) : Option (Bytes × β) :=
  lastSome (fun place => mark (lineAt 10 place)) (lineStarts 10 body)

/-- The session keeps this control attribute and this payload type, and has taken them at these
places. -/
structure Keeps (session : Described) (control : Option (Bytes × Bytes))
    (payload : Option (Bytes × Int)) : Prop where
  controlAttr : session.controlAttr = (control.map Prod.snd).getD []
  controlFrom : session.controlFrom = control.map Prod.fst
  payloadType : session.payloadType = (payload.map Prod.snd).getD 0
  payloadFrom : session.payloadFrom = payload.map Prod.fst

/-- The control attribute and the payload type that are kept are those of the last lines that have
one, and they were taken there. -/
def FromWholeLines (session : Described) (body : Bytes) : Prop :=
  Keeps session (lastLine controlOf body) (lastLine payloadOf body)

/-! ## No fault -/

section Safe

variable {p : Bytes}

theorem trim_spaces_ok (s : Bytes) : trimSpaces s = .ok (trimmed s) := by
  rw [trimSpaces, trim_end_ok]
  show (skipWhile isSpaceTab (s.rdropWhile isLineBlank)
    ((s.rdropWhile isLineBlank).length + 1) 0 >>= _) = _
  rw [skip_while_ok _ rfl]
  exact advance_skipped _

theorem length_piece_le (p : Bytes) : (pieceAt 10 255 p).length ≤ p.length :=
  ((List.take_prefix _ _).trans (List.takeWhile_prefix _)).length_le

/-- A line feed behind the piece is skipped. -/
theorem advance_next (p : Bytes) :
    advance p (if (p.drop (pieceAt 10 255 p).length).headD 0 = 10 then
      (pieceAt 10 255 p).length + 1 else (pieceAt 10 255 p).length) =
      .ok (afterPiece 10 255 p) := by
  have hlength := length_piece_le p
  unfold afterPiece
  cases hrest : p.drop (pieceAt 10 255 p).length with
  | nil =>
      show advance p (pieceAt 10 255 p).length = .ok []
      rw [advance_ok hlength, hrest]
  | cons byte rest =>
      have hroom : (pieceAt 10 255 p).length < p.length := by
        by_contra hfull
        rw [List.drop_eq_nil_of_le (Nat.not_lt.1 hfull)] at hrest
        cases hrest
      by_cases hbyte : byte = 10
      · have htail : p.drop ((pieceAt 10 255 p).length + 1) = rest := by
          rw [← List.tail_drop, hrest]
          rfl
        rw [if_pos (by exact hbyte), if_pos (by rw [hbyte]; rfl), advance_ok hroom]
        exact congrArg Except.ok htail
      · rw [if_neg (by exact hbyte), if_neg (by simpa using hbyte), advance_ok hlength, hrest]

/-- A round reads a piece of a line and goes on behind it. -/
theorem read_line_ok (hp : 0 ∉ p) :
    readLine p = .ok (trimmed (pieceAt 10 255 p), afterPiece 10 255 p) := by
  have hcopy : copyString 10 256 p = .ok (pieceAt 10 255 p) := copy_string_ok (by decide) hp
  rw [readLine, hcopy]
  show (charAt p (pieceAt 10 255 p).length >>= _) = _
  rw [char_at_ok (length_piece_le p)]
  show (advance p _ >>= _) = _
  rw [advance_next]
  show (trimSpaces (pieceAt 10 255 p) >>= _) = _
  rw [trim_spaces_ok]
  rfl

/-- The session after a round that read the text. -/
def afterRound (session : Described) (p text : Bytes) : Described :=
  match controlOf text with
  | some control => { session with controlAttr := control, controlFrom := some p }
  | none => storeRtpmap session p (rtpmapOf text)

/-- The rounds of the line loop one after another. -/
def afterRounds (session : Described) (places : List Bytes) : Described :=
  places.foldl (fun session place => afterRound session place (pieceAt 10 255 place)) session

/-- What begins with a text is at least as long. -/
theorem length_of_starts {s start : Bytes} (h : startsWith s start = true) :
    start.length ≤ s.length := (List.isPrefixOf_iff_prefix.1 h).length_le

/-- An empty line begins with no attribute. -/
theorem not_starts_of_empty {s rest : Bytes} {first : UInt8} (h : s.headD 0 = 0)
    (hfirst : first ≠ 0) : ¬ startsWith s (first :: rest) = true := by
  intro hstart
  obtain ⟨tail, rfl⟩ := List.isPrefixOf_iff_prefix.1 hstart
  exact hfirst h

theorem after_round_empty (session : Described) {text : Bytes} (h : (trimmed text).headD 0 = 0) :
    afterRound session p text = session := by
  have hcontrol : ¬ startsWith (trimmed text) (ascii "a=control:") = true :=
    not_starts_of_empty h (by decide)
  have hrtpmap : ¬ startsWith (trimmed text) (ascii "a=rtpmap:") = true :=
    not_starts_of_empty h (by decide)
  rw [afterRound, controlOf, if_neg hcontrol, rtpmapOf, if_neg hcontrol, if_neg hrtpmap]
  rfl

theorem store_line_ok (session : Described) (text : Bytes) :
    storeLine session p (trimmed text) = .ok (afterRound session p text) := by
  rw [storeLine, char_at_zero]
  show (if (trimmed text).headD 0 = 0 then _ else _) = _
  split
  · rename_i hempty
    rw [after_round_empty session hempty]
    rfl
  · unfold afterRound controlOf rtpmapOf
    split
    · rename_i hcontrol
      have hlength : 10 ≤ (trimmed text).length := length_of_starts hcontrol
      rw [advance_ok hlength]
      show (trimSpaces ((trimmed text).drop 10) >>= _) = _
      rw [trim_spaces_ok]
      rfl
    · split
      · rename_i hrtpmap
        have hlength : 9 ≤ (trimmed text).length := length_of_starts hrtpmap
        rw [advance_ok hlength]
        rfl
      · rfl

/-- The loop comes to the end of the body, and stores what the rounds read. -/
theorem line_loop_ok (session : Described) (hp : 0 ∉ p) {fuel : Nat} (hfuel : p.length < fuel) :
    lineLoop fuel p session = .ok (afterRounds session (pieceStarts 10 255 fuel p)) := by
  induction fuel generalizing p session with
  | zero => omega
  | succ fuel ih =>
      rw [lineLoop, char_at_zero, pieceStarts]
      cases p with
      | nil => rfl
      | cons byte rest =>
          have hbyte : ¬ byte = 0 := fun h => hp (h ▸ List.mem_cons_self)
          have hafter : (afterPiece 10 255 (byte :: rest)).length < fuel :=
            lt_of_lt_of_le (length_after_piece (by decide) (List.cons_ne_nil byte rest))
              (Nat.lt_succ_iff.1 hfuel)
          have hnext : 0 ∉ afterPiece 10 255 (byte :: rest) :=
            fun hmem => hp ((after_piece_suffix _).subset hmem)
          show (if byte = 0 then _ else _) = _
          rw [if_neg hbyte, if_neg (List.cons_ne_nil byte rest), read_line_ok hp]
          show (storeLine session (byte :: rest) (trimmed (pieceAt 10 255 (byte :: rest))) >>= _) =
            _
          rw [store_line_ok]
          exact ih _ hnext hafter

/-- The text behind an occurrence of a pattern. -/
theorem advance_behind {pattern response : Bytes} {k : Nat} (hne : pattern ≠ [])
    (h : find pattern response = some k) :
    advance response (k + pattern.length) = .ok (response.drop (k + pattern.length)) :=
  advance_ok (occurrence_le ((find_eq_some_iff hne).1 h).1 hne)

theorem content_base_ok {response : Bytes} (h : 0 ∉ response) :
    ∃ contentBase, parseContentBase response = .ok contentBase := by
  unfold parseContentBase
  cases hfound : find (ascii "Content-Base:") response with
  | none => exact ⟨[], rfl⟩
  | some k =>
      have hbehind : advance response (k + 13) = .ok (response.drop (k + 13)) :=
        advance_behind (by decide) hfound
      have htext : 0 ∉ (response.drop (k + 13)).dropWhile (· == 32) := fun hmem =>
        h (List.mem_of_mem_drop ((List.dropWhile_suffix _).subset hmem))
      refine ⟨(snprintf 512 (trimmed ((((response.drop (k + 13)).dropWhile (· == 32)).takeWhile
        (· ≠ 13)).take 511))).kept, ?_⟩
      show (advance response (k + 13) >>= _) = _
      rw [hbehind]
      show (skipWhile (· == 32) (response.drop (k + 13)) _ 0 >>= _) = _
      rw [skip_while_ok _ (by rfl)]
      show (advance (response.drop (k + 13)) _ >>= _) = _
      rw [advance_skipped]
      show (copyString 13 512 _ >>= _) = _
      rw [copy_string_ok (by decide) htext]
      show (trimSpaces _ >>= _) = _
      rw [trim_spaces_ok]
      rfl

theorem need_slash_ok (base ctrl : Bytes) : ∃ slash, needSlash base ctrl = .ok slash := by
  unfold needSlash
  split
  · exact ⟨false, rfl⟩
  · rw [char_at_ok (Nat.sub_le _ _), char_at_zero]
    exact ⟨_, rfl⟩

theorem setup_url_ok (session : Described) (requestUrl : Bytes) :
    ∃ setupUrl, buildSetupUrl session requestUrl = .ok setupUrl := by
  rw [buildSetupUrl]
  show ∃ setupUrl, (if startsWith session.controlAttr (ascii "rtsp://") then _ else _) =
    Except.ok setupUrl
  split
  · exact ⟨_, rfl⟩
  · obtain ⟨slash, hslash⟩ := need_slash_ok
      (if session.contentBase = [] then requestUrl else session.contentBase) session.controlAttr
    rw [hslash]
    exact ⟨_, rfl⟩

end Safe

/-! ## The attributes that are kept -/

section Kept

variable {β : Type}

/-- The last round of the line loop that reads an attribute. -/
def lastRound (mark : Bytes → Option β) (body : Bytes) : Option (Bytes × β) :=
  lastSome (fun place => mark (pieceAt 10 255 place)) (pieceStarts 10 255 (body.length + 1) body)

/-- A field that each round sets from its text keeps what the last of them set it to, and the field
beside it where that was. -/
theorem kept_fold {mark : Bytes → Option β} {value : Described → β}
    {source : Described → Option Bytes}
    (hvalue : ∀ session place text,
      value (afterRound session place text) = (mark text).getD (value session))
    (hsource : ∀ session place text,
      source (afterRound session place text) = ((mark text).map fun _ => place).or (source session))
    (session : Described) (places : List Bytes) :
    value (afterRounds session places) =
        ((lastSome (fun place => mark (pieceAt 10 255 place)) places).map Prod.snd).getD
          (value session) ∧
      source (afterRounds session places) =
        ((lastSome (fun place => mark (pieceAt 10 255 place)) places).map Prod.fst).or
          (source session) := by
  induction places generalizing session with
  | nil => exact ⟨rfl, rfl⟩
  | cons place rest ih =>
      obtain ⟨hrest, hplaces⟩ := ih (afterRound session place (pieceAt 10 255 place))
      rw [last_some_cons]
      show value (afterRounds (afterRound session place (pieceAt 10 255 place)) rest) = _ ∧
        source (afterRounds (afterRound session place (pieceAt 10 255 place)) rest) = _
      rw [hrest, hplaces, hvalue, hsource]
      cases lastSome (fun place => mark (pieceAt 10 255 place)) rest with
      | some found => exact ⟨rfl, rfl⟩
      | none => cases mark (pieceAt 10 255 place) <;> exact ⟨rfl, rfl⟩

theorem after_round_control (session : Described) (place text : Bytes) :
    (afterRound session place text).controlAttr = (controlOf text).getD session.controlAttr ∧
      (afterRound session place text).controlFrom =
        ((controlOf text).map fun _ => place).or session.controlFrom := by
  unfold afterRound
  cases controlOf text with
  | some control => exact ⟨rfl, rfl⟩
  | none => cases rtpmapOf text <;> exact ⟨rfl, rfl⟩

theorem after_round_payload (session : Described) (place text : Bytes) :
    (afterRound session place text).payloadType = (payloadOf text).getD session.payloadType ∧
      (afterRound session place text).payloadFrom =
        ((payloadOf text).map fun _ => place).or session.payloadFrom := by
  unfold afterRound payloadOf
  cases hcontrol : controlOf text with
  | some control =>
      -- a line is not both
      have hrtpmap : rtpmapOf text = none := by
        unfold controlOf at hcontrol
        split at hcontrol
        · rename_i hstart
          exact if_pos hstart
        · cases hcontrol
      rw [hrtpmap]
      exact ⟨rfl, rfl⟩
  | none => cases rtpmapOf text <;> exact ⟨rfl, rfl⟩

/-- The line loop keeps the attributes that the last of its rounds read. -/
theorem body_read (contentBase : Bytes) {body : Bytes} (hbody : 0 ∉ body) :
    ∃ session, lineLoop (body.length + 1) body { Described.reset with contentBase } = .ok session ∧
      Keeps session (lastRound controlOf body) (lastRound payloadOf body) := by
  have hcontrol := @kept_fold _ controlOf Described.controlAttr Described.controlFrom
    (fun session place text => (after_round_control session place text).1)
    (fun session place text => (after_round_control session place text).2)
    { Described.reset with contentBase } (pieceStarts 10 255 (body.length + 1) body)
  have hpayload := @kept_fold _ payloadOf Described.payloadType Described.payloadFrom
    (fun session place text => (after_round_payload session place text).1)
    (fun session place text => (after_round_payload session place text).2)
    { Described.reset with contentBase } (pieceStarts 10 255 (body.length + 1) body)
  refine ⟨_, line_loop_ok _ hbody (Nat.lt_succ_self _), hcontrol.1, ?_, hpayload.1, ?_⟩
  · exact hcontrol.2.trans Option.or_none
  · exact hpayload.2.trans Option.or_none

/-- The function comes to its end without a fault for every response, and keeps the attributes that
the last rounds of the line loop read. -/
theorem describe_ok (requestUrl : Bytes) (response : CString) :
    ∃ session status,
      rtspParseDescribeResponse requestUrl response.1 = .ok (session, status) ∧
        Keeps session (lastRound controlOf (sdpOf response.1))
          (lastRound payloadOf (sdpOf response.1)) := by
  unfold rtspParseDescribeResponse sdpOf
  cases hfound : find (ascii "\r\n\r\n") response.1 with
  | none => exact ⟨.reset, -1, rfl, rfl, rfl, rfl, rfl⟩
  | some k =>
      have hbehind : advance response.1 (k + 4) = .ok (response.1.drop (k + 4)) :=
        advance_behind (by decide) hfound
      have hbody : 0 ∉ response.1.drop (k + 4) := fun hmem =>
        response.2 (List.mem_of_mem_drop hmem)
      obtain ⟨contentBase, hbase⟩ := content_base_ok response.2
      obtain ⟨session, hloop, hkeeps⟩ := body_read contentBase hbody
      obtain ⟨setupUrl, hurl⟩ := setup_url_ok session requestUrl
      refine ⟨{ session with setupUrl }, 0, ?_, hkeeps.controlAttr, hkeeps.controlFrom,
        hkeeps.payloadType, hkeeps.payloadFrom⟩
      show (advance response.1 (k + 4) >>= _) = _
      rw [hbehind]
      show (parseContentBase response.1 >>= _) = _
      rw [hbase]
      show (lineLoop ((response.1.drop (k + 4)).length + 1) (response.1.drop (k + 4))
        { Described.reset with contentBase } >>= _) = _
      rw [hloop]
      show (buildSetupUrl session requestUrl >>= _) = _
      rw [hurl]
      rfl

end Kept

/-! ## Attributes of a line that is cut -/

section Cut

variable {line other start : Bytes}

/-- What is trimmed off the beginning of a line is trimmed off the line too. -/
theorem trimmed_mono (h : line <+: other) : trimmed line <+: trimmed other :=
  dropWhile_prefix_mono (rdropWhile_prefix_mono h)

theorem starts_mono (h : line <+: other) (hstart : startsWith line start = true) :
    startsWith other start = true :=
  List.isPrefixOf_iff_prefix.2 ((List.isPrefixOf_iff_prefix.1 hstart).trans h)

/-- A name of 31 characters at most, and a slash behind it. -/
theorem behind_name_iff {text tail : Bytes} :
    behindName text = some tail ↔
      ∃ enc, text = enc ++ 47 :: tail ∧ enc ≠ [] ∧ enc.length ≤ 31 ∧ 47 ∉ enc := by
  constructor
  · intro h
    generalize henc : (text.takeWhile (· ≠ 47)).take 31 = enc
    have hleading : enc <+: text.takeWhile (· ≠ 47) := henc ▸ List.take_prefix _ _
    have hsplit := List.prefix_append_drop (hleading.trans (List.takeWhile_prefix _))
    have hname : (if enc ≠ [] ∧ (text.drop enc.length).head? = some 47 then
        some (text.drop enc.length).tail else none) = some tail := henc ▸ h
    split at hname
    · rename_i hslash
      refine ⟨enc, ?_, hslash.1, ?_, fun hmem => ?_⟩
      · rw [← Option.some.inj hname, List.cons_head?_tail hslash.2]
        exact hsplit
      · rw [← henc]
        exact List.length_take_le _ _
      · exact absurd (List.mem_takeWhile_imp (hleading.subset hmem)) (by simp)
    · cases hname
  · rintro ⟨enc, rfl, hne, hlength, hslash⟩
    have htake : (enc ++ 47 :: tail).takeWhile (· ≠ 47) = enc :=
      takeWhile_block (fun byte hbyte => decide_eq_true fun h => hslash (h ▸ hbyte)) (by simp)
    unfold behindName
    simp only [htake, List.take_of_length_le hlength, List.drop_left]
    exact if_pos ⟨hne, rfl⟩

/-- What stands behind a number and a name is the same in a longer text. -/
theorem behind_name_append {text tail : Bytes} (h : behindName text = some tail)
    (more : Bytes) : behindName (text ++ more) = some (tail ++ more) := by
  obtain ⟨enc, rfl, hne, hlength, hslash⟩ := behind_name_iff.1 h
  exact behind_name_iff.2 ⟨enc, by simp, hne, hlength, hslash⟩

/-- The payload type is the same in a longer text. -/
theorem scan_rtpmap_append {val : Bytes} {numbers : Int × Int}
    (h : scanRtpmap val = some numbers) (more : Bytes) :
    ∃ clock, scanRtpmap (val ++ more) = some (numbers.1, clock) := by
  obtain ⟨⟨pt, rest⟩, hpt, hname⟩ := Option.bind_eq_some_iff.1 h
  obtain ⟨tail, htail, hclock⟩ := Option.bind_eq_some_iff.1 hname
  obtain ⟨⟨clock, behind⟩, hnumber, hnumbers⟩ := Option.bind_eq_some_iff.1 hclock
  cases hnumbers
  have hskip : rest.dropWhile isspace ≠ [] := by
    intro hnil
    simp [hnil, behindName] at htail
  have hrest : rest ≠ [] := by
    rintro rfl
    exact hskip rfl
  have hsome : (scanInt tail).isSome := by
    rw [hnumber]
    rfl
  obtain ⟨found, hfound⟩ := Option.isSome_iff_exists.1 (scan_int_isSome hsome more)
  refine ⟨found.1, ?_⟩
  unfold scanRtpmap
  rw [scan_int_append hpt hrest more]
  show (behindName ((rest ++ more).dropWhile isspace) >>= _) = _
  rw [List.dropWhile_append, if_neg (by simpa using hskip), behind_name_append htail more]
  show (scanInt (tail ++ more) >>= _) = _
  rw [hfound]
  rfl

/-- A line does not begin with both attributes. -/
theorem not_control_of_rtpmap (h : startsWith line (ascii "a=rtpmap:") = true) :
    ¬ startsWith line (ascii "a=control:") = true := by
  intro hcontrol
  have hboth : ascii "a=rtpmap:" <+: ascii "a=control:" :=
    List.prefix_of_prefix_length_le (List.isPrefixOf_iff_prefix.1 h)
      (List.isPrefixOf_iff_prefix.1 hcontrol) (by decide)
  exact absurd hboth (by decide)

/-- The payload type at the beginning of a line is that of the line. -/
theorem payload_mono {pt : Int} (h : line <+: other) (hline : payloadOf line = some pt) :
    payloadOf other = some pt := by
  obtain ⟨numbers, hnumbers, rfl⟩ := Option.map_eq_some_iff.1 hline
  unfold rtpmapOf at hnumbers
  split at hnumbers
  · cases hnumbers
  · split at hnumbers
    · rename_i hrtpmap
      have hother := starts_mono (trimmed_mono h) hrtpmap
      obtain ⟨more, hmore⟩ := (trimmed_mono h).drop 9
      obtain ⟨clock, hclock⟩ := scan_rtpmap_append hnumbers more
      rw [payloadOf, rtpmapOf, if_neg (not_control_of_rtpmap hother), if_pos hother, ← hmore,
        hclock]
      rfl
    · cases hnumbers

theorem control_isSome_iff :
    (controlOf line).isSome ↔ startsWith (trimmed line) (ascii "a=control:") = true := by
  unfold controlOf
  split <;> simp [*]

theorem control_mono (h : line <+: other) (hline : (controlOf line).isSome) :
    (controlOf other).isSome :=
  control_isSome_iff.2 (starts_mono (trimmed_mono h) (control_isSome_iff.1 hline))

/-- The characters of a text that are not blanks. -/
def visible (text : Bytes) : Nat := text.countP fun byte => !isLineBlank byte

theorem visible_trimmed (text : Bytes) : visible (trimmed text) = visible text := by
  unfold visible trimmed
  rw [countP_dropWhile_blank, countP_rdropWhile_blank]
  · intro byte hbyte
    simp [hbyte]
  · intro byte hbyte
    have hblank : byte = 32 ∨ byte = 9 := by simpa [isSpaceTab] using hbyte
    rcases hblank with rfl | rfl <;> rfl

/-- The value of a control attribute has the other characters of its line. -/
theorem visible_control (h : startsWith (trimmed line) (ascii "a=control:") = true) :
    visible (trimmed ((trimmed line).drop 10)) + 10 = visible line := by
  have hsplit : ascii "a=control:" ++ (trimmed line).drop 10 = trimmed line :=
    (List.prefix_append_drop (List.isPrefixOf_iff_prefix.1 h)).symm
  have hname : visible (ascii "a=control:") = 10 := by decide
  have hvisible : visible (ascii "a=control:" ++ (trimmed line).drop 10) =
      visible (ascii "a=control:") + visible ((trimmed line).drop 10) := List.countP_append
  rw [hsplit, visible_trimmed, hname] at hvisible
  rw [visible_trimmed, hvisible, Nat.add_comm]

theorem length_trimmed_le (text : Bytes) : (trimmed text).length ≤ text.length :=
  (List.dropWhile_suffix _).length_le.trans (List.rdropWhile_prefix _ _).length_le

/-- Blanks at the end of a line are trimmed off. -/
theorem trimmed_append_blank {blanks : Bytes} (h : ∀ byte ∈ blanks, isLineBlank byte = true) :
    trimmed (line ++ blanks) = trimmed line := by
  have hblanks : ∀ byte ∈ blanks.reverse, isLineBlank byte = true := fun byte hbyte =>
    h byte (List.mem_reverse.1 hbyte)
  rw [trimmed, trimmed, List.rdropWhile, List.reverse_append,
    List.dropWhile_append_of_pos hblanks, List.rdropWhile]

/-- The first 255 bytes of a line have its control attribute exactly when only blanks follow. -/
theorem control_cut_iff (h : (controlOf line).isSome) :
    controlOf (line.take 255) = controlOf line ↔ ∀ byte ∈ line.drop 255, isLineBlank byte := by
  have hline := control_isSome_iff.1 h
  constructor
  · intro heq
    have hfirst := control_isSome_iff.1 (heq ▸ h)
    rw [controlOf, controlOf, if_pos hline, if_pos hfirst, Option.some.injEq] at heq
    have hsmall : (trimmed ((trimmed (line.take 255)).drop 10)).length ≤ 245 := by
      have htake : (trimmed (line.take 255)).length ≤ 255 :=
        (length_trimmed_le _).trans (List.length_take_le _ _)
      refine (length_trimmed_le _).trans ?_
      rw [List.length_drop]
      omega
    -- a value that the buffer cuts is longer than that
    have hfits : (trimmed ((trimmed line).drop 10)).length ≤ 255 := by
      by_contra hlong
      have hlength := congrArg List.length heq
      rw [List.length_take, List.length_take] at hlength
      omega
    rw [List.take_of_length_le (hsmall.trans (by decide)), List.take_of_length_le hfits] at heq
    have hvisible : visible (line.take 255) = visible line := by
      rw [← visible_control hfirst, ← visible_control hline, heq]
    have hrest : visible (line.drop 255) = 0 := by
      have hsplit : visible (line.take 255 ++ line.drop 255) =
          visible (line.take 255) + visible (line.drop 255) := List.countP_append
      rw [List.take_append_drop] at hsplit
      omega
    intro byte hbyte
    simpa using List.countP_eq_zero.1 hrest byte hbyte
  · intro hblank
    have htrimmed : trimmed (line.take 255 ++ line.drop 255) = trimmed (line.take 255) :=
      trimmed_append_blank hblank
    rw [List.take_append_drop] at htrimmed
    rw [controlOf, controlOf, htrimmed]

end Cut

/-! ## Whole lines -/

/-- A value with its place is read off the two fields that keep it. -/
theorem last_eq_iff {β : Type} (default : β) {kept found : Option (Bytes × β)} :
    ((kept.map Prod.snd).getD default = (found.map Prod.snd).getD default ∧
      kept.map Prod.fst = found.map Prod.fst) ↔ kept = found := by
  cases kept <;> cases found <;> simp [Prod.ext_iff, and_comm]

/-- A session keeps nothing else than it keeps. -/
theorem Keeps.iff {session : Described} {control other : Option (Bytes × Bytes)}
    {payload another : Option (Bytes × Int)} (h : Keeps session control payload) :
    Keeps session other another ↔ control = other ∧ payload = another := by
  constructor
  · intro hother
    exact ⟨(last_eq_iff []).1 ⟨h.controlAttr.symm.trans hother.controlAttr,
        h.controlFrom.symm.trans hother.controlFrom⟩,
      (last_eq_iff 0).1 ⟨h.payloadType.symm.trans hother.payloadType,
        h.payloadFrom.symm.trans hother.payloadFrom⟩⟩
  · rintro ⟨rfl, rfl⟩
    exact h

/-- The last round with a control attribute reads the last line with one exactly when, from that
line on, no line has a piece behind the first that begins with `a=control:`, and only blanks follow
the first 255 bytes of that line. -/
theorem control_rounds_iff (body : Bytes) :
    lastRound controlOf body = lastLine controlOf body ↔
      FromLast (fun line => (controlOf line).isSome)
        (fun line => NoFragment controlOf 255 line ∧
          ((controlOf line).isSome → ∀ byte ∈ line.drop 255, isLineBlank byte))
        (linesOf 10 body) := by
  have hrounds : lastRound controlOf body = lastLine controlOf body ↔ _ :=
    last_pieces_iff (by decide) (Nat.lt_succ_self body.length)
  rw [hrounds]
  refine from_last_congr fun line _ => and_congr_right fun _ => ?_
  cases hline : controlOf line with
  | some control =>
      have hsome : (controlOf line).isSome := by rw [hline]; rfl
      rw [← hline, control_cut_iff hsome]
      exact ⟨fun h _ => h, fun h => h hsome⟩
  | none =>
      refine iff_of_true ?_ (by simp)
      rw [← Option.not_isSome_iff_eq_none]
      intro hcut
      simpa [hline] using control_mono (List.take_prefix 255 line) hcut

/-- The last round with a payload type reads the last line with one exactly when, from that line
on, no line has a piece behind the first that gives a payload type, and the first 255 bytes of that
line do. -/
theorem payload_rounds_iff (body : Bytes) :
    lastRound payloadOf body = lastLine payloadOf body ↔
      FromLast (fun line => (payloadOf line).isSome)
        (fun line => NoFragment payloadOf 255 line ∧
          ((payloadOf line).isSome → (payloadOf (line.take 255)).isSome))
        (linesOf 10 body) := by
  have hrounds : lastRound payloadOf body = lastLine payloadOf body ↔ _ :=
    last_pieces_iff (by decide) (Nat.lt_succ_self body.length)
  rw [hrounds]
  refine from_last_congr fun line _ => and_congr_right fun _ => ?_
  cases hcut : payloadOf (line.take 255) with
  | some pt =>
      rw [payload_mono (List.take_prefix 255 line) hcut]
      exact iff_of_true rfl fun _ => rfl
  | none =>
      rw [eq_comm, ← Option.not_isSome_iff_eq_none]
      simp

/-- What is kept comes from whole lines exactly when the last rounds of the line loop read them. -/
theorem whole_lines_iff (requestUrl : Bytes) (response : CString) :
    (∃ session status,
      rtspParseDescribeResponse requestUrl response.1 = .ok (session, status) ∧
        FromWholeLines session (sdpOf response.1)) ↔
      lastRound controlOf (sdpOf response.1) = lastLine controlOf (sdpOf response.1) ∧
        lastRound payloadOf (sdpOf response.1) = lastLine payloadOf (sdpOf response.1) := by
  obtain ⟨session, status, hrun, hkeeps⟩ := describe_ok requestUrl response
  rw [← hkeeps.iff]
  constructor
  · rintro ⟨other, _, hother, hwhole⟩
    cases hrun.symm.trans hother
    exact hwhole
  · exact fun hwhole => ⟨session, status, hrun, hwhole⟩

/-- The function comes to its end inside of its strings and arrays, and keeps the attributes of
whole lines, exactly when the lines of the body from the last attribute on are not cut where it
matters. -/
theorem described_iff (requestUrl : Bytes) (response : CString) :
    (∃ session status,
      rtspParseDescribeResponse requestUrl response.1 = .ok (session, status) ∧
        FromWholeLines session (sdpOf response.1)) ↔
      FromLast (fun line => (controlOf line).isSome)
        (fun line => NoFragment controlOf 255 line ∧
          ((controlOf line).isSome → ∀ byte ∈ line.drop 255, isLineBlank byte))
        (linesOf 10 (sdpOf response.1)) ∧
      FromLast (fun line => (payloadOf line).isSome)
        (fun line => NoFragment payloadOf 255 line ∧
          ((payloadOf line).isSome → (payloadOf (line.take 255)).isSome))
        (linesOf 10 (sdpOf response.1)) := by
  rw [whole_lines_iff, control_rounds_iff, payload_rounds_iff]

/-- Lines of at most 255 bytes are read as a whole. -/
theorem short_lines_whole (requestUrl : Bytes) (response : CString)
    (h : ∀ line ∈ linesOf 10 (sdpOf response.1), line.length ≤ 255) :
    ∃ session status,
      rtspParseDescribeResponse requestUrl response.1 = .ok (session, status) ∧
        FromWholeLines session (sdpOf response.1) := by
  refine (whole_lines_iff requestUrl response).2
    ⟨(control_rounds_iff _).2 (from_last_of_forall fun line hline => ?_),
      (payload_rounds_iff _).2 (from_last_of_forall fun line hline => ?_)⟩
  · refine ⟨no_fragment_short (h line hline), fun _ byte hbyte => ?_⟩
    rw [List.drop_eq_nil_of_le (h line hline)] at hbyte
    cases hbyte
  · refine ⟨no_fragment_short (h line hline), fun hsome => ?_⟩
    rwa [List.take_of_length_le (h line hline)]

/-- A response whose body is one line, with the text of a control attribute behind 255 other
characters. -/
def longLine : CString :=
  ⟨ascii "RTSP/1.0 200 OK\r\n\r\n" ++ List.replicate 255 120 ++ ascii "a=control:evil\r\n",
    by decide +kernel⟩

/-- The attribute in the middle of the line is taken. -/
theorem described_fails_fragment : ¬ ∀ (requestUrl : Bytes) (response : CString),
    ∃ session status, rtspParseDescribeResponse requestUrl response.1 = .ok (session, status) ∧
      FromWholeLines session (sdpOf response.1) := by
  intro h
  have hrounds := ((whole_lines_iff [] longLine).1 (h [] longLine)).1
  have hlines : linesOf 10 (sdpOf longLine.1) =
      [List.replicate 255 120 ++ ascii "a=control:evil\r"] := by decide +kernel
  have hcontrol : controlOf (((List.replicate 255 120 ++ ascii "a=control:evil\r").drop
      (255 * 1)).take 255) = some (ascii "evil") := by decide +kernel
  rw [control_rounds_iff, hlines] at hrounds
  rcases hrounds.1 with ⟨hfragment, -⟩ | ⟨other, hother, -⟩
  · have hnone := hfragment 1 (by decide) (by decide +kernel)
    rw [hcontrol] at hnone
    cases hnone
  · cases hother

end CarDetect.Camera
