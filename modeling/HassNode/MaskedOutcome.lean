import HassNode.GatewayWs
import HassNode.NumberText

/-!
# Masking and the outcome of an invoke

Whether an invoke succeeded is read from the key `ok` of a result whose keys have been masked.  The
outcome reported is the right one for every caller, command and handler exactly when the supplied
codes leave that key alone and there is a mask to put in their place.
-/

namespace HassNode.GatewayWs

open Py HaClient Authz EffectPolicy Dispatcher

/-! ## Forms in the key -/

/-- The texts that occur in the key `ok`. -/
def okParts : List PyStr := [py "o", py "k", py "ok"]

theorem infix_ok {form : PyStr} (hne : form ≠ []) (h : form <:+: py "ok") : form ∈ okParts := by
  obtain ⟨c, rest, rfl⟩ := List.exists_cons_of_ne_nil hne
  have hok : py "ok" = [111, 107] := by decide
  rw [hok, List.infix_cons_iff, List.cons_prefix_cons] at h
  rcases h with ⟨rfl, hrest⟩ | hin
  · rcases List.prefix_cons_iff.mp hrest with rfl | ⟨tail, rfl, htail⟩
    · decide
    · rw [List.prefix_nil.mp htail]
      decide
  · rcases List.infix_cons_iff.mp hin with hbegins | hnil
    · obtain ⟨rfl, hrest⟩ := List.cons_prefix_cons.mp hbegins
      rw [List.prefix_nil.mp hrest]
      decide
    · cases List.infix_nil.mp hnil

theorem infix_of_okParts : ∀ form ∈ okParts, form <:+: py "ok" := by
  decide

/-- The first character of a text that occurs in the key. -/
theorem okParts_head : ∀ form ∈ okParts, form.head? = some 111 ∨ form.head? = some 107 := by
  decide

/-- Only the letters themselves are printed as letters of the key. -/
theorem eq_of_dumpsChars {s form : PyStr} (hform : form.all (fun c => c = 111 || c = 107) = true)
    (h : s.flatMap dumpsChar = form) : s = form := by
  induction s generalizing form with
  | nil => exact h
  | cons c s ih =>
    rw [List.flatMap_cons] at h
    have hchar : dumpsChar c = [c] := by
      by_contra hescaped
      have hbackslash : (dumpsChar c).head? = some 92 := by
        unfold dumpsChar at hescaped ⊢
        cases hfound : asciiEscapes.lookup c with
        | some escape =>
          have hescapes : ∀ kv ∈ asciiEscapes, kv.2.head? = some 92 := by decide
          exact hescapes (c, escape) (mem_of_lookup hfound)
        | none =>
          rw [hfound] at hescaped
          simp only at hescaped ⊢
          split_ifs at hescaped ⊢ with hprintable hplane
          · exact absurd rfl hescaped
          · rfl
          · rfl
      obtain ⟨tail, htail⟩ := List.head?_eq_some_iff.mp hbackslash
      rw [htail] at h
      rw [← h] at hform
      exact absurd hform (by simp)
    rw [hchar, List.singleton_append] at h
    rw [← h, List.all_cons, Bool.and_eq_true] at hform
    rw [← h, ← ih hform.2 rfl]

theorem digit_ne_letter (d : Fin 10) : digit d ≠ 111 ∧ digit d ≠ 107 := by
  revert d
  decide

/-- A text that does not begin with a letter of the key. -/
def Foreign (s : PyStr) : Prop := ∃ c rest, s = c :: rest ∧ c ≠ 111 ∧ c ≠ 107

theorem Foreign.not_mem {s : PyStr} (h : Foreign s) : s ∉ okParts := by
  obtain ⟨c, rest, rfl, hletters⟩ := h
  intro hmem
  rcases okParts_head _ hmem with hhead | hhead
  · exact hletters.1 (Option.some.inj hhead)
  · exact hletters.2 (Option.some.inj hhead)

theorem foreign_intStr (i : Int) : Foreign (intStr i) := by
  obtain ⟨d, rest, hdigits⟩ := natStr_head i.natAbs
  unfold intStr
  rw [hdigits]
  split
  · exact ⟨45, _, rfl, by decide⟩
  · exact ⟨digit d, rest, rfl, digit_ne_letter d⟩

theorem foreign_reprFloat (x : Double) : Foreign (reprFloat x) := by
  cases x with
  | nan => exact ⟨110, _, rfl, by decide⟩
  | inf neg => cases neg <;> exact ⟨_, _, rfl, by decide⟩
  | zero neg => cases neg <;> exact ⟨_, _, rfl, by decide⟩
  | dec neg d =>
    cases neg with
    | true => exact ⟨45, _, rfl, by decide⟩
    | false =>
      obtain ⟨y, tail, hdigits⟩ := NumberText.reprDigits_head d
      exact ⟨digit y, tail, hdigits, digit_ne_letter y⟩

theorem foreign_dumpsFloat (x : Double) : Foreign (dumpsFloat x) := by
  cases x with
  | nan => exact ⟨78, _, rfl, by decide⟩
  | inf neg => cases neg <;> exact ⟨_, _, rfl, by decide⟩
  | zero neg => exact foreign_reprFloat (.zero neg)
  | dec neg d => exact foreign_reprFloat (.dec neg d)

theorem foreign_repr [Runtime] {code : Json} (h : ∀ s, code ≠ .str s) : Foreign (Py.repr code) := by
  cases code with
  | null => exact ⟨78, _, rfl, by decide⟩
  | bool b => cases b <;> exact ⟨_, _, rfl, by decide⟩
  | int i => exact foreign_intStr i
  | float x => exact foreign_reprFloat x
  | str s => exact absurd rfl (h s)
  | list items => exact ⟨91, _, rfl, by decide⟩
  | dict entries => exact ⟨123, _, rfl, by decide⟩

theorem foreign_dumpsText {code : Json} (h : ∀ s, code ≠ .str s) : Foreign (dumpsText code) := by
  cases code with
  | null => exact ⟨110, _, rfl, by decide⟩
  | bool b => cases b <;> exact ⟨_, _, rfl, by decide⟩
  | int i => exact foreign_intStr i
  | float x => exact foreign_dumpsFloat x
  | str s => exact absurd rfl (h s)
  | list items => exact ⟨91, _, rfl, by decide⟩
  | dict entries => exact ⟨123, _, rfl, by decide⟩

theorem foreign_reprStr [Runtime] (s : PyStr) : Foreign (Py.reprStr s) := by
  unfold Py.reprStr
  extract_lets quote
  refine ⟨quote, _, rfl, ?_⟩
  show (if s.contains 39 && !s.contains 34 then (34 : CodePoint) else 39) ≠ 111 ∧
    (if s.contains 39 && !s.contains 34 then (34 : CodePoint) else 39) ≠ 107
  split <;> decide

/-- A code with a form in the key is a part of the key itself. -/
theorem code_of_form [Runtime] {code : Json} {form : PyStr} (hform : form ∈ codeForms code)
    (hok : form ∈ okParts) : ∃ s ∈ okParts, code = .str s := by
  have hletters : ∀ s ∈ okParts, s.all (fun c => c = 111 || c = 107) = true := by decide
  by_cases htext : ∃ s, code = .str s
  · obtain ⟨s, rfl⟩ := htext
    simp only [codeForms, List.mem_cons, List.not_mem_nil, or_false] at hform
    rcases hform with rfl | rfl | rfl | hinner
    · exact ⟨_, hok, rfl⟩
    · exact absurd hok (Foreign.not_mem ⟨34, _, rfl, by decide⟩)
    · exact absurd hok (foreign_reprStr s).not_mem
    · exact ⟨s, eq_of_dumpsChars (hletters form hok) hinner.symm ▸ hok, rfl⟩
  · rw [not_exists] at htext
    have hforms : codeForms code = [Py.repr code, dumpsText code] := by
      cases code with
      | str s => exact absurd rfl (htext s)
      | _ => rfl
    rw [hforms, List.mem_cons, List.mem_singleton] at hform
    rcases hform with rfl | rfl
    · exact absurd hok (foreign_repr htext).not_mem
    · exact absurd hok (foreign_dumpsText htext).not_mem

/-! ## What a result reports -/

/-- `result.get("ok", True) is True`. -/
def outcomeOk : Except Failure Json → Bool
  | .ok (.dict result) => Dict.getD result (py "ok") (.bool true) = .bool true
  | _ => false

/-- A failed result carries an error object. -/
def HasError (response : Dict) : Prop :=
  response.get? (py "ok") = some (.bool false) ∧
    ∃ error : Dict, response.get? (py "error") = some (.dict error)

theorem get?_baseOf {invokeId nodeId key : PyStr} (hid : key ≠ py "id") (hnode : key ≠ py "nodeId") :
    Dict.get? (baseOf invokeId nodeId) key = none := by
  rw [baseOf, Dict.get?_cons, if_neg hid, Dict.get?_cons, if_neg hnode, Dict.get?_nil]

theorem failedResult_hasError (invokeId nodeId code message : PyStr) :
    HasError (failedResult (baseOf invokeId nodeId) code message) := by
  unfold HasError failedResult
  constructor
  · rw [Dict.get?_append, get?_baseOf (by decide) (by decide), Option.none_or, Dict.get?_cons,
      if_pos rfl]
  · rw [Dict.get?_append, get?_baseOf (by decide) (by decide), Option.none_or, Dict.get?_cons,
      if_neg (by decide), Dict.get?_cons, if_pos rfl]
    exact ⟨_, rfl⟩

/-- The frame reports what the scrubbed result says. -/
theorem resultOf_ok (invokeId nodeId : PyStr) {outcome : Except Failure Json}
    (h : outcomeOk outcome = true) :
    (resultOf (baseOf invokeId nodeId) outcome).get? (py "ok") = some (.bool true) := by
  match outcome, h with
  | .ok (.dict result), h =>
    have hsucceeded : decide (Dict.getD result (py "ok") (.bool true) = .bool true) = true := h
    rw [resultOf]
    simp only [hsucceeded, if_true]
    rw [Dict.get?_append, get?_baseOf (by decide) (by decide), Option.none_or, Dict.get?_cons,
      if_pos rfl]

theorem resultOf_hasError (invokeId nodeId : PyStr) {outcome : Except Failure Json}
    (h : outcomeOk outcome = false) : HasError (resultOf (baseOf invokeId nodeId) outcome) := by
  unfold resultOf
  split
  · next result =>
    have hfailed : decide (Dict.getD result (py "ok") (.bool true) = .bool true) = false := h
    unfold HasError
    have hok : Dict.get? (baseOf invokeId nodeId) (py "ok") = none :=
      get?_baseOf (by decide) (by decide)
    have herror : Dict.get? (baseOf invokeId nodeId) (py "error") = none :=
      get?_baseOf (by decide) (by decide)
    simp only [hfailed, Bool.false_eq_true, if_false, Dict.get?_append, hok, herror, Option.none_or]
    constructor
    · rw [Dict.get?_cons, if_pos rfl]
      rfl
    · rw [Dict.get?_cons, if_neg (by decide), Dict.get?_cons, if_neg (by decide), Dict.get?_nil,
        Option.none_or, Dict.get?_cons, if_pos rfl]
      exact ⟨_, rfl⟩
  · exact failedResult_hasError _ _ _ _
  · exact failedResult_hasError _ _ _ _
  · exact failedResult_hasError _ _ _ _

/-! ## One invoke -/

/-- A decoded invoke, what its handler does when it is called, and the frame it is answered in. -/
structure Invoke where
  denylist : List PyStr
  caller : Caller
  command : PyStr
  params : Dict
  run : Except Failure Json
  invokeId : PyStr
  nodeId : PyStr
  frameId : PyStr
  room : Nat
  /-- A result is a `dict`. -/
  distinct : ∀ result : Dict, run = .ok (.dict result) → result.keys.Nodup

variable [Runtime]

namespace Invoke

def outcome (i : Invoke) : Except Failure Json :=
  dispatchAsync i.denylist i.caller i.command i.params i.run

def response (i : Invoke) : Dict := resultOf (baseOf i.invokeId i.nodeId) i.outcome

/-- The params of the `node.invoke.result` that is sent. -/
def sent (i : Invoke) : Except Exc Dict :=
  boundedResult i.room i.frameId (baseOf i.invokeId i.nodeId) i.response

/-- The policy let the call through and the handler returned a result whose own `ok` is absent or
`True`. -/
def Succeeded (i : Invoke) : Prop :=
  (∃ codes, collectCodes (.dict i.params) = .ok codes) ∧
    (registry i.denylist).lookup i.command ≠ none ∧ check i.caller i.command i.params = none ∧
    ∃ result : Dict, i.run = .ok (.dict result) ∧
      (result.get? (py "ok") = none ∨ result.get? (py "ok") = some (.bool true))

/-- The result is within the size budget. -/
def Fits (i : Invoke) : Prop :=
  ∃ raw, encodeFrame i.room (makeReq i.frameId "node.invoke.result" i.response) = .ok raw ∧
    raw.length ≤ maxInvokeResultBytes

/-- The outcome that is reported is that of the call. -/
structure OutcomeKept (i : Invoke) : Prop where
  reported : ∀ sent, i.sent = .ok sent → sent.get? (py "ok") = some (.bool true) → i.Succeeded
  failed : ∀ sent, i.sent = .ok sent → ¬ i.Succeeded → HasError sent
  succeeded : i.Succeeded → i.Fits →
    ∃ sent, i.sent = .ok sent ∧ sent.get? (py "ok") = some (.bool true)

/-- What is sent is the response, or says that it was too large. -/
theorem sent_cases {i : Invoke} {sent : Dict} (h : i.sent = .ok sent) :
    sent = i.response ∨ sent = tooLarge (baseOf i.invokeId i.nodeId) := by
  unfold Invoke.sent boundedResult at h
  split at h
  · cases h
  · split at h
    · exact .inr (Except.ok.inj h).symm
    · exact .inl (Except.ok.inj h).symm

theorem sent_of_fits {i : Invoke} (h : i.Fits) : i.sent = .ok i.response := by
  obtain ⟨raw, hraw, hlen⟩ := h
  unfold Invoke.sent boundedResult
  rw [hraw]
  exact if_neg (Nat.not_lt.mpr hlen)

/-- The outcome is kept once the scrubbed result says the same as the result. -/
theorem outcomeKept_of_iff {i : Invoke} (h : outcomeOk i.outcome = true ↔ i.Succeeded) :
    i.OutcomeKept where
  reported sent hsent hok := by
    rcases sent_cases hsent with rfl | rfl
    · by_contra hfailed
      have hresponse := (resultOf_hasError i.invokeId i.nodeId
        (Bool.of_not_eq_true fun hout => hfailed (h.mp hout))).1
      have heq := hresponse.symm.trans hok
      cases heq
    · have heq := (failedResult_hasError i.invokeId i.nodeId _ _).1.symm.trans hok
      cases heq
  failed sent hsent hfailed := by
    rcases sent_cases hsent with rfl | rfl
    · exact resultOf_hasError _ _ (Bool.of_not_eq_true fun hout => hfailed (h.mp hout))
    · exact failedResult_hasError _ _ _ _
  succeeded hsucceeded hfits :=
    ⟨i.response, sent_of_fits hfits, resultOf_ok _ _ (h.mpr hsucceeded)⟩

end Invoke

/-- The supplied codes leave the key `ok` alone, and there is a mask to put in their place. -/
def Visible (params : Dict) : Prop :=
  ∀ codes, collectCodes (.dict params) = .ok codes →
    (∀ s ∈ okParts, .str s ∉ codes) ∧
      ∃ candidate ∈ maskCandidates, Redaction.occurs (orderedForms codes) candidate = false

/-! ## Visible codes keep the outcome -/

theorem occurs_ok_iff {codes : List Json} :
    Redaction.occurs (orderedForms codes) (py "ok") = true ↔ ∃ s ∈ okParts, .str s ∈ codes := by
  rw [Redaction.occurs_iff]
  constructor
  · rintro ⟨form, hform, hin⟩
    obtain ⟨hne, code, hcode, hmem⟩ := mem_orderedForms.mp hform
    obtain ⟨s, hs, rfl⟩ := code_of_form hmem (infix_ok hne hin)
    exact ⟨s, hs, hcode⟩
  · rintro ⟨s, hs, hcode⟩
    have hne : ∀ s ∈ okParts, s ≠ [] := by decide
    exact ⟨s, text_mem_orderedForms (hne s hs) hcode, infix_of_okParts s hs⟩

/-- Only the key itself is masked to `ok`. -/
theorem maskText_eq_ok_iff {codes : List Json} (hparts : ∀ s ∈ okParts, .str s ∉ codes)
    (hmask : ∃ candidate ∈ maskCandidates, Redaction.occurs (orderedForms codes) candidate = false)
    (key : PyStr) : maskText (orderedForms codes) (maskFor (orderedForms codes)) key = py "ok" ↔
      key = py "ok" := by
  have hclean : Redaction.occurs (orderedForms codes) (py "ok") = false := by
    by_contra hoccurs
    obtain ⟨s, hs, hcode⟩ := occurs_ok_iff.mp (Bool.of_not_eq_false hoccurs)
    exact hparts s hs hcode
  constructor
  · refine eq_of_maskText (nil_not_mem_orderedForms codes) (by decide) ?_
    have hnotPart : ∀ candidate ∈ maskCandidates, ¬ candidate <:+: py "ok" := by decide
    rcases maskFor_mem (orderedForms codes) with hnil | hmem
    · obtain ⟨candidate, hcandidate, hfree⟩ := hmask
      rw [maskFor_eq_nil_iff.mp hnil candidate hcandidate] at hfree
      cases hfree
    · exact hnotPart _ hmem
  · rintro rfl
    exact maskText_clean hclean

/-- A scrubbed result succeeds when the result does. -/
theorem outcomeOk_scrub {codes : List Json} (hparts : ∀ s ∈ okParts, .str s ∉ codes)
    (hmask : ∃ candidate ∈ maskCandidates, Redaction.occurs (orderedForms codes) candidate = false)
    {result : Dict} (hkeys : result.keys.Nodup) :
    outcomeOk (.ok (scrubCodes codes (.dict result))) = true ↔
      result.get? (py "ok") = none ∨ result.get? (py "ok") = some (.bool true) := by
  show decide (Dict.getD (Dict.update [] (walkMembers codes _ _ result)) (py "ok") (.bool true) =
    .bool true) = true ↔ _
  rw [decide_eq_true_eq, Dict.getD, get?_walk,
    get?_walkMembers (maskText_eq_ok_iff hparts hmask), Dict.get?_reverse hkeys]
  cases Dict.get? result (py "ok") with
  | none => simp
  | some v =>
    rw [Option.map_some, Option.getD_some, walk_eq_true_iff]
    simp

omit [Runtime] in
/-- A refusal of the policy says that it failed. -/
theorem refusal_of_check {caller : Caller} {command : PyStr} {params : Dict} {refusal : Json}
    (h : check caller command params = some refusal) :
    ∃ code message, refusal = error code message := by
  unfold check at h
  simp only at h
  split at h
  · exact ⟨_, _, (Option.some.inj h).symm⟩
  split at h
  · exact ⟨_, _, (Option.some.inj h).symm⟩
  split at h
  · exact ⟨_, _, (Option.some.inj h).symm⟩
  split at h
  · cases h
  split at h
  · split at h
    · cases h
    · exact ⟨_, _, (Option.some.inj h).symm⟩
  · split at h
    · cases h
    split at h
    · cases h
    split at h
    · exact ⟨_, _, (Option.some.inj h).symm⟩
    · exact ⟨_, _, (Option.some.inj h).symm⟩

theorem outcomeOk_refusal {codes : List Json} (hparts : ∀ s ∈ okParts, .str s ∉ codes)
    (hmask : ∃ candidate ∈ maskCandidates, Redaction.occurs (orderedForms codes) candidate = false)
    (code : String) (message : PyStr) :
    outcomeOk (.ok (scrubCodes codes (error code message))) = false := by
  have hkeys : (Dict.keys [(py "ok", Json.bool false), (py "error", .str (py code)),
      (py "message", .str message)]).Nodup := by
    show [py "ok", py "error", py "message"].Nodup
    decide
  refine Bool.of_not_eq_true fun hok => ?_
  rcases (outcomeOk_scrub hparts hmask hkeys).mp hok with hget | hget
  · rw [Dict.get?_cons, if_pos rfl] at hget
    cases hget
  · rw [Dict.get?_cons, if_pos rfl] at hget
    cases hget

/-- With visible codes the dispatcher's result succeeds exactly when the call did. -/
theorem outcomeOk_iff_succeeded {i : Invoke} (h : Visible i.params) :
    outcomeOk i.outcome = true ↔ i.Succeeded := by
  unfold Invoke.outcome dispatchAsync
  cases hcodes : collectCodes (.dict i.params) with
  | error exc =>
    refine iff_of_false (by simp [outcomeOk]) fun hsucceeded => ?_
    obtain ⟨⟨codes, hok⟩, -⟩ := hsucceeded
    rw [hcodes] at hok
    cases hok
  | ok codes =>
  obtain ⟨hparts, hmask⟩ := h codes hcodes
  -- an unknown command, a refusal and the handler, in the order of the dispatcher
  cases hlookup : (registry i.denylist).lookup i.command with
  | none => exact iff_of_false (by simp [outcomeOk]) fun hsucceeded => hsucceeded.2.1 hlookup
  | some registered =>
  cases hcheck : check i.caller i.command i.params with
  | some refusal =>
    obtain ⟨code, message, rfl⟩ := refusal_of_check hcheck
    refine iff_of_false (by simp [outcomeOk_refusal hparts hmask]) fun hsucceeded => ?_
    have hnone := hsucceeded.2.2.1
    rw [hcheck] at hnone
    cases hnone
  | none =>
  have hrun : i.Succeeded ↔ ∃ result : Dict, i.run = .ok (.dict result) ∧
      (result.get? (py "ok") = none ∨ result.get? (py "ok") = some (.bool true)) :=
    ⟨fun hsucceeded => hsucceeded.2.2.2,
      fun hresult => ⟨⟨codes, hcodes⟩, by simp [hlookup], hcheck, hresult⟩⟩
  rw [hrun]
  cases hbehaviour : i.run with
  | error failure =>
    refine iff_of_false ?_ (by simp)
    show outcomeOk (if codes = [] then _ else _) ≠ true
    split <;> simp [outcomeOk]
  | ok result =>
    show outcomeOk (.ok (scrubCodes codes result)) = true ↔ _
    cases result with
    | dict entries =>
      rw [outcomeOk_scrub hparts hmask (i.distinct entries hbehaviour)]
      simp
    | int n =>
      unfold scrubCodes
      rw [walk]
      split <;> simp [outcomeOk]
    | float x =>
      unfold scrubCodes
      rw [walk]
      split <;> simp [outcomeOk]
    | _ => simp [scrubCodes, walk, outcomeOk]

/-! ## Hidden codes invert an outcome -/

/-- A call that reaches its handler, in the smallest frame. -/
def pingInvoke (params result : Dict) (hkeys : result.keys.Nodup) : Invoke where
  denylist := []
  caller := { role := .operator, actorId := py "gateway-invoke" }
  command := py "ping"
  params := params
  run := .ok (.dict result)
  invokeId := []
  nodeId := []
  frameId := []
  room := 10
  distinct _ heq := by
    cases heq
    exact hkeys

theorem pingInvoke_outcome {params result : Dict} (hkeys : result.keys.Nodup) {codes : List Json}
    (hcodes : collectCodes (.dict params) = .ok codes) :
    (pingInvoke params result hkeys).outcome = .ok (scrubCodes codes (.dict result)) := by
  have hlookup : (registry []).lookup (py "ping") = some .node := rfl
  have hcheck : check (pingInvoke params result hkeys).caller (py "ping") params = none := rfl
  show dispatchAsync [] _ (py "ping") params (.ok (.dict result)) = _
  rw [dispatchAsync, hcodes]
  simp only [hlookup, hcheck]

omit [Runtime] in
/-- The frame of a result with one key. -/
theorem length_singleResult (key : PyStr) (value : Bool) :
    ∃ raw, encodeFrame 10 (makeReq [] "node.invoke.result"
        (baseOf [] [] ++ [(py "ok", .bool true), (py "payload", .dict [(key, .bool value)])])) =
          .ok raw ∧ raw.length ≤ 12 * key.length + 1000 := by
  have hroom : dumpsError 10 (makeReq [] "node.invoke.result"
      (baseOf [] [] ++ [(py "ok", .bool true), (py "payload", .dict [(key, .bool value)])])) = none :=
    rfl
  refine ⟨_, encodeFrame_of_room hroom, ?_⟩
  have hname : ∀ name ∈ [py "type", py "req", py "id", [], py "method", py "node.invoke.result",
      py "params", py "nodeId", py "ok", py "payload"], (dumpsStr name).length ≤ 40 := by decide
  simp only [List.forall_mem_cons] at hname
  obtain ⟨htype, hreq, hid, hempty, hmethod, hresult, hparams, hnode, hok, hpayload, -⟩ := hname
  have hkey := length_dumpsStr key
  have hvalue : (if value then py "true" else py "false").length ≤ 5 := by cases value <;> decide
  have hcolon : (py ": ").length = 2 := rfl
  have hcomma : (py ", ").length = 2 := rfl
  have hopen : (py "\x7b").length = 1 := rfl
  have hclose : (py "\x7d").length = 1 := rfl
  have htrue : (py "true").length = 4 := rfl
  simp only [List.length_map, makeReq, obj, baseOf, dumpsText, dumpsMembers, joinWith,
    List.map_cons, List.map_nil, List.cons_append, List.nil_append, List.intercalate_cons_cons,
    List.intercalate_singleton, List.length_append, if_true]
  omega

omit [Runtime] in
theorem length_maskFor (forms : List PyStr) : (maskFor forms).length ≤ 10 := by
  have hcandidates : ∀ candidate ∈ maskCandidates, candidate.length ≤ 10 := by decide
  rcases maskFor_mem forms with hnil | hmem
  · rw [hnil]
    decide
  · exact hcandidates _ hmem

/-- Eight passes over two characters stay far below the budget. -/
theorem length_maskText_ok (codes : List Json) :
    (maskText (orderedForms codes) (maskFor (orderedForms codes)) (py "ok")).length ≤ 1562500 := by
  have hne := nil_not_mem_orderedForms codes
  have hmask := maskFor_clean hne
  have hlen := length_maskFor (orderedForms codes)
  have hok : (py "ok").length = 2 := rfl
  unfold maskText
  split
  · omega
  -- a form has one character in the first pass, and two at least from then on
  · have hwide : ∀ form ∈ orderedForms codes, form <:+: py "ok" → 1 ≤ form.length := by
      intro form hform _
      exact List.length_pos_iff.mpr (mem_orderedForms.mp hform).1
    have hfirst := Redaction.length_substitute 10 1 (by decide) (by decide) (by omega) (py "ok") 0
      hwide
    have hrest := Redaction.length_passes 5 (by decide) (by omega) hne hmask 7
      (Redaction.single_not_mem hmask (py "ok") 0)
    show (if _ then Redaction.passes _ _ 7 _ else Redaction.substitute _ _ 0 _).length ≤ _
    split <;> omega

theorem not_outcomeKept_ping {params result : Dict} {hkeys : result.keys.Nodup} {codes : List Json}
    (key : PyStr) (value : Bool) (hcodes : collectCodes (.dict params) = .ok codes)
    (hscrub : scrubCodes codes (.dict result) = .dict [(key, .bool value)])
    (hreports : Dict.getD [(key, .bool value)] (py "ok") (.bool true) = .bool true)
    (hown : result.get? (py "ok") = some (.bool false)) (hlen : key.length ≤ 1562500) :
    ¬ (pingInvoke params result hkeys).OutcomeKept := by
  intro hkept
  have hresponse : (pingInvoke params result hkeys).response =
      baseOf [] [] ++ [(py "ok", .bool true), (py "payload", .dict [(key, .bool value)])] := by
    unfold Invoke.response
    rw [pingInvoke_outcome hkeys hcodes, hscrub, resultOf]
    simp only [hreports, decide_true, if_true]
    rfl
  have hfits : (pingInvoke params result hkeys).Fits := by
    obtain ⟨raw, hraw, hsize⟩ := length_singleResult key value
    refine ⟨raw, ?_, ?_⟩
    · rw [hresponse]
      exact hraw
    · unfold maxInvokeResultBytes
      omega
  have hsucceeded := hkept.reported _ (Invoke.sent_of_fits hfits) (by
    rw [hresponse, Dict.get?_append, get?_baseOf (by decide) (by decide), Option.none_or,
      Dict.get?_cons, if_pos rfl])
  obtain ⟨-, -, -, own, hrun, hok⟩ := hsucceeded
  have heq : (.ok (.dict result) : Except Failure Json) = .ok (.dict own) := hrun
  rw [← Json.dict.inj (Except.ok.inj heq), hown] at hok
  rcases hok with hok | hok <;> cases hok

/-- A code that is a part of the key hides it: a failed call succeeds. -/
theorem part_inverts {params : Dict} {codes : List Json}
    (hcodes : collectCodes (.dict params) = .ok codes) {s : PyStr} (hs : s ∈ okParts)
    (hcode : .str s ∈ codes) :
    ¬ (pingInvoke params [(py "ok", .bool false)] (List.nodup_singleton _)).OutcomeKept := by
  have hhidden : maskText (orderedForms codes) (maskFor (orderedForms codes)) (py "ok") ≠ py "ok" :=
    maskText_ne (by decide) (occurs_ok_iff.mpr ⟨s, hs, hcode⟩) _
  refine not_outcomeKept_ping _ false hcodes rfl ?_ (by decide) (length_maskText_ok codes)
  rw [Dict.getD, Dict.get?_cons, if_neg (Ne.symm hhidden), Dict.get?_nil, Option.getD_none]

/-- Without a mask a form in front of the key is taken for the key. -/
theorem maskless_inverts {params : Dict} {codes : List Json}
    (hcodes : collectCodes (.dict params) = .ok codes) (hparts : ∀ s ∈ okParts, .str s ∉ codes)
    (hmask : maskFor (orderedForms codes) = []) :
    ∃ result, ∃ hkeys : Dict.keys result |>.Nodup, ¬ (pingInvoke params result hkeys).OutcomeKept := by
  have hclean : Redaction.occurs (orderedForms codes) (py "ok") = false := by
    by_contra hoccurs
    obtain ⟨s, hs, hcode⟩ := occurs_ok_iff.mp (Bool.of_not_eq_false hoccurs)
    exact hparts s hs hcode
  obtain ⟨form, hform, -⟩ := Redaction.occurs_iff.mp
    (maskFor_eq_nil_iff.mp hmask (py "***") (by decide))
  obtain ⟨first, rest, hforms⟩ := List.exists_cons_of_ne_nil (List.ne_nil_of_mem hform)
  have hfirst : first ≠ [] :=
    (mem_orderedForms.mp (hforms ▸ List.mem_cons_self : first ∈ orderedForms codes)).1
  have hnew : py "ok" ≠ first ++ py "ok" := by
    intro heq
    exact hfirst (List.self_eq_append_left.mp heq)
  have hmasked : maskText (orderedForms codes) [] (first ++ py "ok") = py "ok" := by
    unfold maskText
    rw [if_neg (List.ne_nil_of_mem hform)]
    exact Redaction.passes_prefixed hforms hfirst hclean
  have hkeys : (Dict.keys [(py "ok", Json.bool false), (first ++ py "ok", .bool true)]).Nodup := by
    show [py "ok", first ++ py "ok"].Nodup
    simp [hnew]
  refine ⟨_, hkeys, not_outcomeKept_ping (py "ok") true hcodes ?_ rfl ?_ (by decide)⟩
  · unfold scrubCodes
    rw [hmask, walk, walkMembers, walkMembers, walkMembers, maskText_clean hclean, hmasked]
    rfl
  · rw [Dict.get?_cons, if_pos rfl]

/-- The outcome of every call with these params is kept exactly when its codes are visible. -/
theorem outcome_kept_iff (params : Dict) :
    (∀ i : Invoke, i.params = params → i.OutcomeKept) ↔ Visible params := by
  constructor
  · intro h codes hcodes
    have hparts : ∀ s ∈ okParts, .str s ∉ codes := by
      intro s hs hcode
      exact part_inverts hcodes hs hcode (h _ rfl)
    refine ⟨hparts, ?_⟩
    by_contra hnone
    have hmask : maskFor (orderedForms codes) = [] := by
      refine maskFor_eq_nil_iff.mpr fun candidate hcandidate => ?_
      by_contra hfree
      exact hnone ⟨candidate, hcandidate, Bool.of_not_eq_true hfree⟩
    obtain ⟨result, hkeys, hinverted⟩ := maskless_inverts hcodes hparts hmask
    exact hinverted (h _ rfl)
  · intro hvisible i hparams
    exact Invoke.outcomeKept_of_iff (outcomeOk_iff_succeeded (hparams ▸ hvisible))

/-! ## A refusal that is reported as done -/

/-- A household caller asks for a restart and supplies the code `ok`. -/
def restartInvoke : Invoke where
  denylist := []
  caller := { role := .user, actorId := py "household" }
  command := py "ha.call_service"
  params := [(py "domain", .str (py "homeassistant")), (py "service", .str (py "restart")),
    (py "code", .str (py "ok"))]
  run := .error (.raised (.other (py "RuntimeError")))
  invokeId := py "a1"
  nodeId := py "n1"
  frameId := py "f1"
  room := 10
  distinct _ heq := by cases heq

omit [Runtime] in
theorem refused_restart_reported :
    (check restartInvoke.caller restartInvoke.command restartInvoke.params).isSome = true ∧
      (@Invoke.sent (.ofTable []) restartInvoke).toOption.bind (fun sent => sent.get? (py "ok")) =
        some (.bool true) := by
  decide +kernel

end HassNode.GatewayWs
