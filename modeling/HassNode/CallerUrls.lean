import HassNode.Commands.HaReads
import HassNode.Library.Uri

/-!
# What the caller puts into a URL

`ha.get_state`, `ha.logbook` and `ha.history` put texts of their caller into the path and into the
query of a request.  `caller_urls_exact` reads the requests of every run back in the way of RFC 3986:
the endpoint is the fixed one, and each text arrives as it was given.
-/

namespace HassNode.HaReads

open Py Interaction HaClient Commands HaConfig HaServices Uri

/-! ## Quoted texts -/

theorem hexValue?_upperHex (n : Nat) : hexValue? (upperHex n).val = some (n % 16) := by
  have hlt : n % 16 < 16 := Nat.mod_lt _ (by decide)
  unfold upperHex hexValue?
  by_cases hdigit : n % 16 < 10
  · rw [if_pos hdigit]
    show (if 48 ≤ 48 + n % 16 ∧ 48 + n % 16 ≤ 57 then _ else _) = _
    rw [if_pos (by omega)]
    simp
  · rw [if_neg hdigit]
    show (if 48 ≤ 55 + n % 16 ∧ 55 + n % 16 ≤ 57 then _ else
      if 65 ≤ 55 + n % 16 ∧ 55 + n % 16 ≤ 70 then _ else _) = _
    rw [if_neg (by omega), if_pos (by omega)]
    simp

/-- The characters that a quoted text is made of. -/
def QuotedChar (safe : List Nat) (c : Nat) : Prop := isUnreserved c = true ∨ c ∈ safe ∨ c = 37

section
variable {safe : List Nat} (hsafe : ∀ c ∈ safe, c < 128 ∧ c ≠ 37)

include hsafe

/-- One octet is read back. -/
theorem percentDecode_quoteByte {b : Nat} (hb : b < 256) (rest : List Nat) :
    percentDecode ((quoteByte safe b).map Fin.val ++ rest) =
      (percentDecode rest).map fun octets => b :: octets := by
  unfold quoteByte
  by_cases hkeep : (isUnreserved b || safe.contains b) = true
  · rw [if_pos hkeep]
    have hplain : b < 128 ∧ b ≠ 37 := by
      rw [Bool.or_eq_true] at hkeep
      rcases hkeep with hunreserved | hcontains
      · constructor
        · unfold isUnreserved at hunreserved
          simp only [Bool.or_eq_true, Bool.and_eq_true, decide_eq_true_eq] at hunreserved
          omega
        · rintro rfl
          exact absurd hunreserved (by decide)
      · exact hsafe b (List.contains_iff_mem.mp hcontains)
    have hval : (Fin.ofNat 0x110000 b).val = b := Nat.mod_eq_of_lt (by omega)
    show percentDecode ((Fin.ofNat 0x110000 b).val :: rest) = _
    rw [hval]
    exact percentDecode_cons hplain.1 hplain.2 rest
  · rw [if_neg hkeep]
    show percentDecode (37 :: (upperHex (b / 16)).val :: (upperHex b).val :: rest) = _
    rw [percentDecode_escape (hexValue?_upperHex _) (hexValue?_upperHex _)]
    have hvalue : 16 * (b / 16 % 16) + b % 16 = b := by omega
    rw [hvalue]

omit hsafe in
theorem quotedChar_quoteByte (b : Nat) (hb : b < 256) :
    ∀ c ∈ (quoteByte safe b).map Fin.val, QuotedChar safe c := by
  have hhex : ∀ n, isUnreserved (upperHex n).val = true := by
    intro n
    have hlt : n % 16 < 16 := Nat.mod_lt _ (by decide)
    unfold upperHex isUnreserved
    split <;> simp <;> omega
  unfold quoteByte QuotedChar
  by_cases hkeep : (isUnreserved b || safe.contains b) = true
  · rw [if_pos hkeep]
    have hval : (Fin.ofNat 0x110000 b).val = b := Nat.mod_eq_of_lt (by omega)
    intro c hc
    rw [List.map_cons, List.map_nil, List.mem_singleton, hval] at hc
    subst hc
    rw [Bool.or_eq_true, List.contains_iff_mem] at hkeep
    exact hkeep.imp_right .inl
  · rw [if_neg hkeep]
    simp only [List.map_cons, List.map_nil, List.mem_cons, List.not_mem_nil, or_false]
    rintro c (rfl | rfl | rfl)
    · exact .inr (.inr rfl)
    · exact .inl (hhex _)
    · exact .inl (hhex _)

/-- A quoted text is made of harmless characters, and percent-decoding gives its octets. -/
theorem quote_reads {value encoded : PyStr} (h : quote safe value = some encoded) :
    (∃ octets, percentDecode (encoded.map Fin.val) = some octets ∧ decodeUtf8 octets = some value) ∧
      ∀ c ∈ encoded.map Fin.val, QuotedChar safe c := by
  unfold quote at h
  rw [Option.map_eq_some_iff] at h
  obtain ⟨octets, hoctets, rfl⟩ := h
  have hlt : ∀ b ∈ octets, b < 256 := fun b hb => encodeUtf8_lt hoctets hb
  have hreads : ∀ raw : List Nat, (∀ b ∈ raw, b < 256) →
      percentDecode ((raw.flatMap (quoteByte safe)).map Fin.val) = some raw := by
    intro raw hraw
    induction raw with
    | nil => rfl
    | cons b raw ih =>
      rw [List.forall_mem_cons] at hraw
      rw [List.flatMap_cons, List.map_append, percentDecode_quoteByte hsafe hraw.1, ih hraw.2]
      rfl
  refine ⟨⟨octets, hreads octets hlt, decodeUtf8_encodeUtf8 hoctets⟩, ?_⟩
  intro c hc
  obtain ⟨d, hd, rfl⟩ := List.mem_map.mp hc
  obtain ⟨b, hb, hd⟩ := List.mem_flatMap.mp hd
  exact quotedChar_quoteByte b (hlt b hb) _ (List.mem_map_of_mem hd)

end

/-! ## Pieces of a URL -/

/-- The raw octets of a text are the text, when it is made of letters, digits and underscores. -/
def Plain (text : PyStr) : Prop := ∀ c ∈ text, isUnreserved c.val = true

instance decidablePlain (text : PyStr) : Decidable (Plain text) :=
  decidable_of_iff ((text.all fun c => isUnreserved c.val) = true) List.all_eq_true

theorem unreserved_lt {c : Nat} (h : isUnreserved c = true) : c < 128 := by
  unfold isUnreserved at h
  simp only [Bool.or_eq_true, Bool.and_eq_true, decide_eq_true_eq] at h
  omega

theorem unreserved_ne {c d : Nat} (h : isUnreserved c = true) (hd : isUnreserved d = false) :
    c ≠ d := by
  rintro rfl
  rw [h] at hd
  cases hd

theorem Plain.octets {text : PyStr} (h : Plain text) :
    ∀ c ∈ text.map Fin.val, isUnreserved c = true := by
  intro c hc
  obtain ⟨d, hd, rfl⟩ := List.mem_map.mp hc
  exact h d hd

theorem Plain.reads {text : PyStr} (h : Plain text) :
    readSegment decodeUtf8 (text.map Fin.val) = some text := by
  have hascii : Ascii text := fun c hc => unreserved_lt (h c hc)
  have hdecode : percentDecode (text.map Fin.val) = some (text.map Fin.val) := by
    clear hascii
    induction text with
    | nil => rfl
    | cons c text ih =>
      have hc := h c List.mem_cons_self
      rw [List.map_cons, percentDecode_cons (unreserved_lt hc) (unreserved_ne hc (by decide)),
        ih fun d hd => h d (List.mem_cons_of_mem _ hd)]
      rfl
  unfold readSegment
  rw [hdecode]
  exact decodeUtf8_encodeUtf8 (encodeUtf8_ascii hascii)

/-- Nothing in the text is read as a space. -/
theorem formDecode_of_no_plus {raw : List Nat} (h : 43 ∉ raw) : formDecode raw = percentDecode raw := by
  unfold formDecode
  congr 1
  rw [List.map_congr_left (g := id), List.map_id]
  intro c hc
  have hne : c ≠ 43 := by
    rintro rfl
    exact h hc
  exact if_neg hne

/-- A fixed segment of an endpoint. -/
theorem isSegment_plain {text : PyStr} (h : Plain text) (hdot : isDotSegment text = false) :
    IsSegment decodeUtf8 (text.map Fin.val) text where
  reads := h.reads
  inert c hc := by
    have hc := h.octets c hc
    exact ⟨unreserved_ne hc (by decide), unreserved_ne hc (by decide), unreserved_ne hc (by decide)⟩
  notDot := by
    have hval : ∀ other : PyStr, text.map Fin.val = other.map Fin.val → text = other :=
      fun other h => List.map_injective_iff.mpr Fin.val_injective h
    constructor
    · intro heq
      rw [hval (py ".") heq] at hdot
      exact absurd hdot (by decide)
    · intro heq
      rw [hval (py "..") heq] at hdot
      exact absurd hdot (by decide)

/-- A text of the caller as a segment. -/
theorem isSegment_encoded {value encoded : PyStr} (h : encodePathSegment value = .ok (some encoded)) :
    IsSegment decodeUtf8 (encoded.map Fin.val) value ∧ isDotSegment value = false := by
  unfold encodePathSegment at h
  split at h
  · cases h
  · rename_i hdot
    have hplain : isDotSegment value = false := by
      unfold isDotSegment
      simpa using hdot
    refine ⟨?_, hplain⟩
    cases hquote : quote [58, 43, 46] value with
    | none =>
      rw [hquote] at h
      cases h
    | some quoted =>
      rw [hquote] at h
      cases h
      obtain ⟨⟨octets, hoctets, htext⟩, hchars⟩ := quote_reads (by decide) hquote
      refine ⟨?_, ?_, ?_⟩
      · unfold readSegment
        rw [hoctets]
        exact htext
      · intro c hc
        rcases hchars c hc with hc | hc | rfl
        · exact ⟨unreserved_ne hc (by decide), unreserved_ne hc (by decide),
            unreserved_ne hc (by decide)⟩
        · simp only [List.mem_cons, List.not_mem_nil, or_false] at hc
          omega
        · decide
      · -- A dot segment in the URL could only come from one of the caller.
        have hdots : ∀ raw, encoded.map Fin.val = raw → percentDecode raw = some raw →
            decodeUtf8 raw = some value := by
          rintro raw rfl hraw
          rw [hoctets, Option.some.injEq] at hraw
          rw [← hraw]
          exact htext
        constructor
        · intro heq
          cases hdots _ heq rfl
          exact hdot (.inl rfl)
        · intro heq
          cases hdots _ heq rfl
          exact hdot (.inr rfl)

/-- `name=value` with a text of the caller. -/
theorem isParameter_encoded {name value encoded : PyStr} (hname : Plain name)
    (h : encodeQueryValue value = .ok encoded) :
    IsParameter decodeUtf8 ((name ++ py "=" ++ encoded).map Fin.val) (name, value) := by
  unfold encodeQueryValue at h
  cases hquote : quote [58, 44] value with
  | none =>
    rw [hquote] at h
    cases h
  | some quoted =>
    rw [hquote] at h
    cases h
    obtain ⟨⟨octets, hoctets, htext⟩, hchars⟩ := quote_reads (by decide) hquote
    have hraw : (name ++ py "=" ++ encoded).map Fin.val =
        name.map Fin.val ++ 61 :: encoded.map Fin.val := by
      simp [show py "=" = [61] from rfl]
    have hnameChars := hname.octets
    have hvalueChars : ∀ c ∈ encoded.map Fin.val, c ≠ 38 ∧ c ≠ 35 ∧ c ≠ 43 := by
      intro c hc
      rcases hchars c hc with hc | hc | rfl
      · exact ⟨unreserved_ne hc (by decide), unreserved_ne hc (by decide), unreserved_ne hc (by decide)⟩
      · simp only [List.mem_cons, List.not_mem_nil, or_false] at hc
        omega
      · decide
    rw [hraw]
    refine ⟨?_, ?_⟩
    · have hcut : cutAt 61 (name.map Fin.val ++ 61 :: encoded.map Fin.val) =
          (name.map Fin.val, some (encoded.map Fin.val)) :=
        cutAt_append (fun hc => unreserved_ne (hnameChars 61 hc) (by decide) rfl) _
      have hformName : formDecode (name.map Fin.val) = percentDecode (name.map Fin.val) :=
        formDecode_of_no_plus fun hc => unreserved_ne (hnameChars 43 hc) (by decide) rfl
      have hformValue : formDecode (encoded.map Fin.val) = some octets := by
        rw [formDecode_of_no_plus fun hc => (hvalueChars 43 hc).2.2 rfl, hoctets]
      have hnameReads : (percentDecode (name.map Fin.val)).bind decodeUtf8 = some name := hname.reads
      unfold readParameter
      rw [hcut]
      dsimp only
      rw [hformName, hnameReads, Option.getD_some, hformValue]
      show ((decodeUtf8 octets).bind fun value => some (name, value)) = some (name, value)
      rw [htext]
      rfl
    · intro c hc
      rw [List.mem_append, List.mem_cons] at hc
      rcases hc with hc | rfl | hc
      · exact ⟨unreserved_ne (hnameChars c hc) (by decide), unreserved_ne (hnameChars c hc) (by decide)⟩
      · decide
      · exact ⟨(hvalueChars c hc).1, (hvalueChars c hc).2.1⟩

/-- A flag: a name alone. -/
theorem isParameter_flag {name : PyStr} (hname : Plain name) :
    IsParameter decodeUtf8 (name.map Fin.val) (name, []) where
  reads := by
    have hnameChars := hname.octets
    have hformName : formDecode (name.map Fin.val) = percentDecode (name.map Fin.val) :=
      formDecode_of_no_plus fun hc => unreserved_ne (hnameChars 43 hc) (by decide) rfl
    have hnameReads : (percentDecode (name.map Fin.val)).bind decodeUtf8 = some name := hname.reads
    unfold readParameter
    rw [cutAt_of_not_mem fun hc => unreserved_ne (hnameChars 61 hc) (by decide) rfl]
    dsimp only
    rw [hformName, hnameReads]
    rfl
  inert c hc := by
    have hc := hname.octets c hc
    exact ⟨unreserved_ne hc (by decide), unreserved_ne hc (by decide)⟩

/-! ## Whole URLs -/

/-- A path whose segments are read as `values`. -/
def Carries (path : PyStr) (values : List PyStr) : Prop :=
  ∃ raws, raws ≠ [] ∧ path.map Fin.val = 47 :: [47].intercalate raws ∧
    List.Forall₂ (IsSegment decodeUtf8) raws values

/-- Parts of a query that are read as `parameters`. -/
def Adds (parts : List PyStr) (parameters : List (PyStr × PyStr)) : Prop :=
  List.Forall₂ (IsParameter decodeUtf8) (parts.map fun part => part.map Fin.val) parameters

/-- The URL that a request is sent to, as it is read. -/
def readTarget (path : PyStr) : Option (Target PyStr) := Uri.read decodeUtf8 (path.map Fin.val)

theorem map_intercalate {α β : Type} (f : α → β) (sep : List α) (pieces : List (List α)) :
    (sep.intercalate pieces).map f = (sep.map f).intercalate (pieces.map (List.map f)) := by
  unfold List.intercalate
  rw [List.map_flatten]
  congr 1
  induction pieces with
  | nil => rfl
  | cons piece pieces ih =>
    cases pieces with
    | nil => rfl
    | cons next pieces => simpa [List.intersperse] using ih

/-- The fixed part of a path. -/
theorem carries_endpoint {base : PyStr} {endpoint : List PyStr} (hne : endpoint ≠ [])
    (hbase : base = 47 :: [47].intercalate endpoint)
    (hplain : ∀ segment ∈ endpoint, Plain segment ∧ isDotSegment segment = false) :
    Carries base endpoint := by
  subst hbase
  refine ⟨endpoint.map (List.map Fin.val), by simpa using hne, ?_, ?_⟩
  · rw [List.map_cons, map_intercalate]
    rfl
  · rw [List.forall₂_map_left_iff, List.forall₂_same]
    intro segment hmem
    exact isSegment_plain (hplain segment hmem).1 (hplain segment hmem).2

/-- One segment of the caller behind a path. -/
theorem Carries.snoc {path value encoded : PyStr} {values : List PyStr} (h : Carries path values)
    (hencoded : encodePathSegment value = .ok (some encoded)) :
    Carries (path ++ py "/" ++ encoded) (values ++ [value]) := by
  obtain ⟨raws, hne, hpath, hraws⟩ := h
  refine ⟨raws ++ [encoded.map Fin.val], by simp, ?_, ?_⟩
  · have hjoin : [47].intercalate (raws ++ [encoded.map Fin.val]) =
        [47].intercalate raws ++ 47 :: encoded.map Fin.val := by
      clear hpath hraws
      induction raws with
      | nil => exact absurd rfl hne
      | cons raw raws ih =>
        cases raws with
        | nil => simp [List.intercalate]
        | cons next raws =>
          have htail := ih (List.cons_ne_nil _ _)
          simp only [List.intercalate, List.cons_append, List.intersperse, List.flatten_cons,
            List.append_assoc] at htail ⊢
          rw [htail]
    rw [List.map_append, List.map_append, hpath, hjoin]
    simp [show py "/" = [47] from rfl]
  · exact List.rel_append hraws (.cons (isSegment_encoded hencoded).1 .nil)

theorem Adds.append {parts others : List PyStr} {parameters more : List (PyStr × PyStr)}
    (h : Adds parts parameters) (h' : Adds others more) :
    Adds (parts ++ others) (parameters ++ more) := by
  unfold Adds
  rw [List.map_append]
  exact List.rel_append h h'

/-- A path with its query is read as what its pieces carry. -/
theorem readTarget_withQuery {path : PyStr} {values : List PyStr} {parts : List PyStr}
    {parameters : List (PyStr × PyStr)} (hpath : Carries path values)
    (hparts : Adds parts parameters) :
    readTarget (withQuery path parts) = some ⟨values, parameters⟩ := by
  obtain ⟨raws, hne, hraw, hraws⟩ := hpath
  have hquery : (withQuery path parts).map Fin.val =
      47 :: [47].intercalate raws ++ queryOf (parts.map fun part => part.map Fin.val) := by
    unfold withQuery queryOf joinWith
    by_cases hnil : parts = []
    · subst hnil
      simp [hraw]
    · rw [if_neg hnil, if_neg (by simpa using hnil), List.map_append, List.map_append, hraw,
        map_intercalate]
      simp [show py "?" = [63] from rfl, show py "&" = [38] from rfl]
  unfold readTarget
  rw [hquery]
  exact read_target hraws hne hparts

/-! ## The three commands -/

/-- The commands that put texts of their caller into a URL. -/
inductive ReadCommand where
  | getState
  | logbook
  | history
deriving DecidableEq

def given (value : PyStr) : List PyStr := if value = [] then [] else [value]

def named (name : String) (value : PyStr) : List (PyStr × PyStr) :=
  if value = [] then [] else [(py name, value)]

section
variable [Runtime]

namespace ReadCommand

def handler : ReadCommand → Handler
  | .getState => handleHaGetState
  | .logbook => handleHaLogbook
  | .history => handleHaHistory

def endpoint : ReadCommand → List PyStr
  | .getState => [py "api", py "states"]
  | .logbook => [py "api", py "logbook"]
  | .history => [py "api", py "history", py "period"]

/-- The text that goes into the path. -/
def pathText (params : Dict) : ReadCommand → PyStr
  | .getState => givenText params "entity_id"
  | .logbook | .history => givenText params "start_time"

/-- The ids of `entity_ids`. -/
def ids (params : Dict) : ReadCommand → List PyStr
  | .history => ((historyIds params).toOption.getD none).getD []
  | _ => []

def parameters (params : Dict) : ReadCommand → List (PyStr × PyStr)
  | .getState => []
  | .logbook => named "end_time" (givenText params "end_time") ++
      named "entity" (givenText params "entity_id")
  | .history => named "end_time" (givenText params "end_time") ++
      named "filter_entity_id" (joinWith (py ",") (ids params .history)) ++
        (historyFlags.filter fun flag => params.get? flag = some (.bool true)).map fun flag => (flag, [])

/-- What the request of a call has to say. -/
def intended (command : ReadCommand) (params : Dict) : Target PyStr :=
  ⟨command.endpoint ++ given (command.pathText params), command.parameters params⟩

/-- The texts of the caller. -/
def texts (params : Dict) : ReadCommand → List PyStr
  | .getState => [givenText params "entity_id"]
  | .logbook => [givenText params "start_time", givenText params "end_time",
      givenText params "entity_id"]
  | .history => [givenText params "start_time", givenText params "end_time"] ++ ids params .history

end ReadCommand

def Refused (reply : Result) : Prop := ∃ code message, reply = .ok (error code message)

variable {command : ReadCommand} {params : Dict} {events : List (Event Ans)} {reply : Result}

omit [Runtime] in
theorem refused_of_respond {code : String} {message : PyStr}
    (h : Prog.Path (respond (error code message)) events reply) : events = [] ∧ Refused reply := by
  obtain ⟨rfl, rfl⟩ := Prog.path_ret_iff.mp h
  exact ⟨rfl, code, message, rfl⟩

omit [Runtime] in
theorem path_withKeys {allowed : List PyStr} {k : Program}
    (h : Prog.Path (withKeys allowed params k) events reply) :
    (events = [] ∧ Refused reply) ∨ Prog.Path k events reply := by
  unfold withKeys at h
  cases hkeys : strictKeysError params allowed [] with
  | none =>
    rw [hkeys] at h
    exact .inr h
  | some invalid =>
    rw [hkeys] at h
    unfold strictKeysError at hkeys
    dsimp only at hkeys
    split at hkeys
    · cases hkeys
      exact .inl (refused_of_respond h)
    · split at hkeys
      · cases hkeys
        exact .inl (refused_of_respond h)
      · cases hkeys

omit [Runtime] in
theorem path_withFilters {names extra : List PyStr} {k : Program}
    (h : Prog.Path (withFilters names extra params k) events reply) :
    (events = [] ∧ Refused reply) ∨ Prog.Path k events reply := by
  unfold withFilters at h
  cases hfilters : filterParamError params names extra with
  | none =>
    rw [hfilters] at h
    exact .inr h
  | some invalid =>
    rw [hfilters] at h
    unfold filterParamError at hfilters
    dsimp only at hfilters
    split at hfilters
    · cases hfilters
      exact .inl (refused_of_respond h)
    · rw [Option.map_eq_some_iff] at hfilters
      obtain ⟨name, _, rfl⟩ := hfilters
      exact .inl (refused_of_respond h)

omit [Runtime] in
/-- One request, and what follows it. -/
theorem path_request {r : Request} {k : Json → Program}
    (h : Prog.Path (request r k) events reply) : ∃ (ans : Result) (rest : List (Event Ans)),
      events = ⟨.request r, ans⟩ :: rest ∧
        (rest = [] ∨ ∃ value, Prog.Path (k value) rest reply) := by
  unfold request at h
  rw [Prog.path_call_iff] at h
  obtain ⟨ans, rest, rfl, h⟩ := h
  refine ⟨ans, rest, rfl, ?_⟩
  cases ans with
  | ok value => exact .inr ⟨value, h⟩
  | error exc =>
    cases exc with
    | haClientError code message => exact .inl (Prog.path_ret_iff.mp h).1
    | timeoutError => exact .inl (Prog.path_ret_iff.mp h).1
    | other name => exact .inl (Prog.path_ret_iff.mp h).1

omit [Runtime] in
theorem path_readDict {r : Request} {what : String} {shape : Dict → Json}
    (h : Prog.Path (readDict r what shape) events reply) :
    ∃ ans : Result, events = [⟨.request r, ans⟩] := by
  obtain ⟨ans, rest, rfl, rfl | ⟨value, hvalue⟩⟩ := path_request h
  · exact ⟨ans, rfl⟩
  · cases value <;> exact ⟨ans, by rw [(Prog.path_ret_iff.mp hvalue).1]⟩

omit [Runtime] in
theorem path_readList {r : Request} {what : String} {shape : List Json → Json}
    (h : Prog.Path (readList r what shape) events reply) :
    ∃ ans : Result, events = [⟨.request r, ans⟩] := by
  obtain ⟨ans, rest, rfl, rfl | ⟨value, hvalue⟩⟩ := path_request h
  · exact ⟨ans, rfl⟩
  · cases value <;> exact ⟨ans, by rw [(Prog.path_ret_iff.mp hvalue).1]⟩

omit [Runtime] in
theorem encodePathSegment_cases {value : PyStr} (h : encodeUtf8 value ≠ none) :
    encodePathSegment value = .ok none ∨ ∃ encoded, encodePathSegment value = .ok (some encoded) := by
  obtain ⟨octets, hoctets⟩ := Option.ne_none_iff_exists'.mp h
  unfold encodePathSegment quote
  rw [hoctets]
  split
  · exact .inl rfl
  · exact .inr ⟨_, rfl⟩

omit [Runtime] in
theorem queryPart_adds (name : String) {value : PyStr} (hname : Plain (py name))
    (h : encodeUtf8 value ≠ none) :
    ∃ parts, queryPart name value = .ok parts ∧ Adds parts (named name value) := by
  unfold queryPart named
  by_cases hnil : value = []
  · rw [if_pos hnil, if_pos hnil]
    exact ⟨[], rfl, .nil⟩
  · obtain ⟨octets, hoctets⟩ := Option.ne_none_iff_exists'.mp h
    have hencoded : ∃ encoded, encodeQueryValue value = .ok encoded := by
      unfold encodeQueryValue quote
      rw [hoctets]
      exact ⟨_, rfl⟩
    obtain ⟨encoded, hencoded⟩ := hencoded
    rw [if_neg hnil, if_neg hnil, hencoded]
    exact ⟨_, rfl, .cons (isParameter_encoded hname hencoded) .nil⟩

/-- The path of the logbook and of the history. -/
theorem path_periodPath {base : String} {endpoint : List PyStr} {k : PyStr → Program}
    (hbase : Carries (py base) endpoint) (hutf8 : encodeUtf8 (givenText params "start_time") ≠ none)
    (h : Prog.Path (periodPath base params k) events reply) :
    (events = [] ∧ Refused reply) ∨
      isDotSegment (givenText params "start_time") = false ∧
        ∃ path, Carries path (endpoint ++ given (givenText params "start_time")) ∧
          Prog.Path (k path) events reply := by
  unfold periodPath at h
  dsimp only at h
  unfold given
  by_cases hnil : givenText params "start_time" = []
  · rw [if_pos hnil] at h ⊢
    rw [List.append_nil, hnil]
    exact .inr ⟨by decide, py base, hbase, h⟩
  · rw [if_neg hnil] at h ⊢
    rcases encodePathSegment_cases hutf8 with hnone | ⟨encoded, hencoded⟩
    · rw [hnone] at h
      exact .inl (refused_of_respond h)
    · rw [hencoded] at h
      exact .inr ⟨(isSegment_encoded hencoded).2, _, hbase.snoc hencoded, h⟩

omit [Runtime] in
/-- The URL of the state of an entity. -/
theorem readTarget_statePath {id path : PyStr} (h : StatePath id path) :
    readTarget path = some ⟨[py "api", py "states", id], []⟩ ∧ isDotSegment id = false := by
  obtain ⟨encoded, hencoded, rfl⟩ := h
  have hbase : Carries (py "/api/states") [py "api", py "states"] :=
    carries_endpoint (by decide) (by decide) (by decide)
  have hread := readTarget_withQuery (hbase.snoc hencoded) (show Adds [] [] from .nil)
  exact ⟨hread, (isSegment_encoded hencoded).2⟩

/-- The requests of a call say what they have to: the first one is for the endpoint, and each later
one for the state of an id of the caller. -/
def Exact (command : ReadCommand) (params : Dict) (events : List (Event Ans)) : Prop :=
  ∃ path ans probes, events = ⟨.request (.get path), ans⟩ :: probes ∧
    readTarget path = some (command.intended params) ∧
      ∀ probe ∈ probes, ∃ path id, id ∈ command.ids params ∧ probe.1 = .request (.get path) ∧
        readTarget path = some ⟨[py "api", py "states", id], []⟩

/-- A run that is refused without a request, or whose requests are exact. -/
def RefusedOrExact (command : ReadCommand) (params : Dict) (events : List (Event Ans))
    (reply : Result) : Prop :=
  (events = [] ∧ Refused reply) ∨
    isDotSegment (command.pathText params) = false ∧ Exact command params events

theorem getState_exact (hutf8 : ∀ text ∈ ReadCommand.getState.texts params, encodeUtf8 text ≠ none)
    (h : Prog.Path (handleHaGetState params) events reply) :
    RefusedOrExact .getState params events reply := by
  have hentity := hutf8 _ List.mem_cons_self
  rcases path_withKeys h with hrefused | h
  · exact .inl hrefused
  dsimp only at h
  by_cases hnil : givenText params "entity_id" = []
  · rw [if_pos hnil] at h
    exact .inl (refused_of_respond h)
  rw [if_neg hnil] at h
  rcases encodePathSegment_cases hentity with hnone | ⟨encoded, hencoded⟩
  · rw [hnone] at h
    exact .inl (refused_of_respond h)
  rw [hencoded] at h
  obtain ⟨ans, rfl⟩ := path_readDict h
  obtain ⟨hread, hdot⟩ := readTarget_statePath ⟨encoded, hencoded, rfl⟩
  refine .inr ⟨hdot, _, ans, [], rfl, ?_, ?_⟩
  · rw [hread]
    unfold ReadCommand.intended given
    show _ = some (Target.mk (_ ++ if givenText params "entity_id" = [] then _ else _) _)
    rw [if_neg hnil]
    rfl
  · exact fun probe hprobe => absurd hprobe List.not_mem_nil

theorem logbook_exact (hutf8 : ∀ text ∈ ReadCommand.logbook.texts params, encodeUtf8 text ≠ none)
    (h : Prog.Path (handleHaLogbook params) events reply) :
    RefusedOrExact .logbook params events reply := by
  have hbase : Carries (py "/api/logbook") [py "api", py "logbook"] :=
    carries_endpoint (by decide) (by decide) (by decide)
  rcases path_withFilters h with hrefused | h
  · exact .inl hrefused
  rcases path_periodPath hbase (hutf8 _ (by simp [ReadCommand.texts])) h with
    hrefused | ⟨hdot, path, hpath, h⟩
  · exact .inl hrefused
  obtain ⟨endPart, hend, hendAdds⟩ := queryPart_adds "end_time" (by decide)
    (hutf8 (givenText params "end_time") (by simp [ReadCommand.texts]))
  obtain ⟨entityPart, hentity, hentityAdds⟩ := queryPart_adds "entity" (by decide)
    (hutf8 (givenText params "entity_id") (by simp [ReadCommand.texts]))
  rw [hend] at h
  change Prog.Path (orRaise (queryPart "entity" (givenText params "entity_id")) _) events reply at h
  rw [hentity] at h
  obtain ⟨ans, rfl⟩ := path_readList h
  exact .inr ⟨hdot, _, ans, [], rfl, readTarget_withQuery hpath (hendAdds.append hentityAdds),
    fun probe hprobe => absurd hprobe List.not_mem_nil⟩

omit [Runtime] in
theorem encodeUtf8_ne_none_iff {s : PyStr} :
    encodeUtf8 s ≠ none ↔ ∀ c ∈ s, unencodable c = false := by
  unfold encodeUtf8
  by_cases h : s.any unencodable = true
  · rw [if_pos h]
    rw [List.any_eq_true] at h
    obtain ⟨c, hc, hbad⟩ := h
    constructor
    · intro hne
      exact absurd rfl hne
    · intro hall
      rw [hall c hc] at hbad
      cases hbad
  · rw [if_neg h]
    rw [Bool.not_eq_true, List.any_eq_false] at h
    constructor
    · intro _ c hc
      exact Bool.eq_false_iff.mpr (h c hc)
    · intro _ hnone
      cases hnone

omit [Runtime] in
theorem joined_encodable {ids : List PyStr} (h : ∀ id ∈ ids, encodeUtf8 id ≠ none) :
    encodeUtf8 (joinWith (py ",") ids) ≠ none := by
  rw [encodeUtf8_ne_none_iff]
  intro c hc
  rcases mem_intercalate hc with rfl | ⟨id, hid, hc⟩
  · decide
  · exact encodeUtf8_ne_none_iff.mp (h id hid) c hc

omit [Runtime] in
/-- The flags that are set. -/
theorem historyFlagParts_adds {flags : List PyStr} (hplain : ∀ flag ∈ flags, Plain flag) :
    (∃ code message, historyFlagParts params flags = .error (error code message)) ∨
      ∃ parts, historyFlagParts params flags = .ok parts ∧
        Adds parts ((flags.filter fun flag => params.get? flag = some (.bool true)).map
          fun flag => (flag, [])) := by
  induction flags with
  | nil => exact .inr ⟨[], rfl, .nil⟩
  | cons flag flags ih =>
    rw [List.forall_mem_cons] at hplain
    have hrest := ih hplain.2
    cases hget : params.get? flag with
    | none =>
      have hskip : historyFlagParts params (flag :: flags) = historyFlagParts params flags := by
        rw [historyFlagParts, hget]
      rw [hskip, List.filter_cons_of_neg (by simp [hget])]
      exact hrest
    | some value =>
      cases value with
      | bool set =>
        cases set with
        | false =>
          have hskip : historyFlagParts params (flag :: flags) = historyFlagParts params flags := by
            rw [historyFlagParts, hget]
          rw [hskip, List.filter_cons_of_neg (by simp [hget])]
          exact hrest
        | true =>
          rw [List.filter_cons_of_pos (by simp [hget])]
          rcases hrest with ⟨code, message, herror⟩ | ⟨parts, hparts, hadds⟩
          · exact .inl ⟨code, message, by rw [historyFlagParts, hget]; simp [herror]⟩
          · refine .inr ⟨flag :: parts, by rw [historyFlagParts, hget]; simp [hparts], ?_⟩
            exact .cons (isParameter_flag hplain.1) hadds
      | null | int _ | float _ | str _ | list _ | dict _ =>
        exact .inl ⟨"INVALID_PARAM", flag ++ py " must be a boolean", by rw [historyFlagParts, hget]⟩

theorem historyIds_error {response : Json} (h : historyIds params = .error response) :
    ∃ code message, response = error code message := by
  unfold historyIds at h
  dsimp only at h
  split at h
  · cases h
  · split at h
    · cases h
    · cases h
      exact ⟨_, _, rfl⟩
  · cases h
    exact ⟨_, _, rfl⟩

/-- A read of the state of one of the ids. -/
def ProbesOneOf (ids : List PyStr) (op : Op) : Prop :=
  ∃ path id, id ∈ ids ∧ op = .request (.get path) ∧
    readTarget path = some ⟨[py "api", py "states", id], []⟩

omit [Runtime] in
/-- The flags and the request of `ha.history`, behind the parts of its query that are fixed before. -/
theorem path_historyRequest (ids : List PyStr) {path : PyStr} {values before : List PyStr}
    {parameters : List (PyStr × PyStr)} {k : Json → Program} (hpath : Carries path values)
    (hbefore : Adds before parameters) (hk : ∀ value, Prog.Asks (ProbesOneOf ids) (k value))
    (h : Prog.Path (orReturn (historyFlagParts params historyFlags) fun flagParts =>
      request (.get (withQuery path (before ++ flagParts))) k) events reply) :
    (events = [] ∧ Refused reply) ∨ ∃ path ans probes,
      events = ⟨.request (.get path), ans⟩ :: probes ∧
        readTarget path = some ⟨values, parameters ++ (historyFlags.filter fun flag =>
          params.get? flag = some (.bool true)).map fun flag => (flag, [])⟩ ∧
        ∀ probe ∈ probes, ProbesOneOf ids probe.1 := by
  have hplain : ∀ flag ∈ historyFlags, Plain flag := by decide
  rcases historyFlagParts_adds hplain with ⟨code, message, herror⟩ | ⟨flagParts, hflags, hflagAdds⟩
  · rw [herror] at h
    exact .inl (refused_of_respond h)
  · rw [hflags] at h
    obtain ⟨ans, rest, rfl, hrest⟩ := path_request h
    refine .inr ⟨_, ans, rest, rfl, readTarget_withQuery hpath (hbefore.append hflagAdds), ?_⟩
    rcases hrest with rfl | ⟨value, hvalue⟩
    · exact fun probe hprobe => absurd hprobe List.not_mem_nil
    · exact (hk value).path hvalue

theorem history_exact (hutf8 : ∀ text ∈ ReadCommand.history.texts params, encodeUtf8 text ≠ none)
    (h : Prog.Path (handleHaHistory params) events reply) :
    RefusedOrExact .history params events reply := by
  have hbase : Carries (py "/api/history/period") [py "api", py "history", py "period"] :=
    carries_endpoint (by decide) (by decide) (by decide)
  rcases path_withFilters h with hrefused | h
  · exact .inl hrefused
  rcases path_periodPath hbase (hutf8 _ (by simp [ReadCommand.texts])) h with
    hrefused | ⟨hdot, path, hpath, h⟩
  · exact .inl hrefused
  obtain ⟨endPart, hend, hendAdds⟩ := queryPart_adds "end_time" (by decide)
    (hutf8 (givenText params "end_time") (by simp [ReadCommand.texts]))
  rw [hend] at h
  change Prog.Path (orReturn (historyIds params) _) events reply at h
  cases hids : historyIds params with
  | error response =>
    rw [hids] at h
    obtain ⟨code, message, rfl⟩ := historyIds_error hids
    exact .inl (refused_of_respond h)
  | ok ids =>
    have hcallerIds : ReadCommand.history.ids params = ids.getD [] := by
      show ((historyIds params).toOption.getD none).getD [] = _
      rw [hids]
      rfl
    -- the query holds the end, the ids and the flags, in this order
    have hparameters : ReadCommand.history.parameters params =
        named "end_time" (givenText params "end_time") ++
          named "filter_entity_id" (joinWith (py ",") (ids.getD [])) ++
            (historyFlags.filter fun flag => params.get? flag = some (.bool true)).map
              fun flag => (flag, []) := by
      show _ ++ named _ (joinWith _ (ReadCommand.history.ids params)) ++ _ = _
      rw [hcallerIds]
    have hidsUtf8 : ∀ id ∈ ids.getD [], encodeUtf8 id ≠ none := by
      intro id hid
      refine hutf8 id ?_
      show id ∈ [_, _] ++ ReadCommand.history.ids params
      rw [hcallerIds]
      exact List.mem_append_right _ hid
    unfold RefusedOrExact Exact ReadCommand.intended
    rw [hparameters, hcallerIds]
    rw [hids] at h
    cases ids with
    -- without ids no parameter is added for them
    | none =>
      have hnone : Adds [] (named "filter_entity_id" (joinWith (py ",") [])) := .nil
      refine (path_historyRequest [] hpath (hendAdds.append hnone) ?_ h).imp_right
        fun hexact => ⟨hdot, hexact⟩
      intro value
      cases value with
      | list items => cases items <;> trivial
      | null | bool _ | int _ | float _ | str _ | dict _ => trivial
    | some ids =>
      rw [Option.getD_some] at hidsUtf8 ⊢
      obtain ⟨idPart, hidPart, hidAdds⟩ := queryPart_adds "filter_entity_id" (by decide)
        (joined_encodable hidsUtf8)
      change Prog.Path (orRaise (queryPart "filter_entity_id" (joinWith (py ",") ids)) _) events reply
        at h
      rw [hidPart] at h
      refine (path_historyRequest ids hpath (hendAdds.append hidAdds) ?_ h).imp_right
        fun hexact => ⟨hdot, hexact⟩
      intro value
      cases value with
      | list items =>
        cases items with
        | cons item items => trivial
        -- an empty history is followed by a read of each id that was asked for
        | nil =>
          obtain ⟨paths, hpaths⟩ : ∃ paths, statePaths (ids.take maxEntityStateFetches) = .ok paths :=
            statePaths_isOk fun id hid => hidsUtf8 id (List.mem_of_mem_take hid)
          obtain ⟨hnames, hurls⟩ := statePaths_ok hpaths
          change Prog.Asks _ (orRaise (statePaths (ids.take maxEntityStateFetches)) _)
          rw [hpaths]
          apply asks_probeMissing
          · intro entry hentry
            have hid : entry.1 ∈ paths.map Prod.fst := List.mem_map_of_mem hentry
            rw [hnames] at hid
            exact ⟨entry.2, entry.1, List.mem_of_mem_take (List.mem_filter.mp hid).1, rfl,
              (readTarget_statePath (hurls entry hentry)).1⟩
          · intro missing
            exact asks_ite (asks_respond _) (asks_respond _)
      | null | bool _ | int _ | float _ | str _ | dict _ => trivial

/-- In every run of the three commands on texts that UTF-8 can encode, either the call is refused
without a request, or its requests say exactly what the caller gave: the fixed endpoint with at most
one text as a further segment, and the intended parameters in their order.  A dot segment for the path
is refused. -/
theorem caller_urls_exact (command : ReadCommand) (params : Dict)
    (hutf8 : ∀ text ∈ command.texts params, encodeUtf8 text ≠ none) (events : List (Event Ans))
    (reply : Result) (h : Prog.Path (command.handler params) events reply) :
    (events = [] ∧ Refused reply) ∨
      isDotSegment (command.pathText params) = false ∧ Exact command params events := by
  cases command with
  | getState => exact getState_exact hutf8 h
  | logbook => exact logbook_exact hutf8 h
  | history => exact history_exact hutf8 h

end

namespace UrlSample

scoped instance runtime : Runtime := .ofTable []

/-- A logbook call whose texts hold the delimiters of a URL. -/
def delimiterCall : Dict :=
  [(py "start_time", .str (py "a/../b?c")), (py "end_time", .str (py "1+1#2")),
    (py "entity_id", .str (py "x&y=%41"))]

def delimiterEvents : List (Event Ans) :=
  [⟨.request (.get (py "/api/logbook/a%2F..%2Fb%3Fc?end_time=1%2B1%232&entity=x%26y%3D%2541")),
    .ok (.list [])⟩]

theorem caller_urls_exact_delimiters : Exact .logbook delimiterCall delimiterEvents := by
  have hrun : Prog.Path (handleHaLogbook delimiterCall) delimiterEvents
      (.ok (counted "entries" [])) := .call _ _ _ (.ret _)
  have hexact := caller_urls_exact .logbook delimiterCall (by decide) delimiterEvents _ hrun
  exact (hexact.resolve_left fun hrefused => List.cons_ne_nil _ _ hrefused.1).2

end UrlSample

end HassNode.HaReads
