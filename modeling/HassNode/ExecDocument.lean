import HassNode.Commands.ExecStore
import HassNode.IndentRoundTrip

/-!
# A stored policy reads back

The document that `system.execApprovals.set` writes: merging the socket keeps a document valid, and
what `_serialize_document` yields for a valid document is read by `_read_snapshot` as that document.
-/

namespace HassNode.ExecApprovals

open Py Indent Interaction HaClient

variable [Runtime]

/-! ## The checks of a document -/

def documentFields : List PyStr := [py "version", py "socket", py "defaults", py "agents"]

omit [Runtime] in
theorem unknownKeys_eq_nil {entries : Dict} {fields : List PyStr} :
    unknownKeys entries fields = [] ↔ ∀ key ∈ entries.keys, key ∈ fields := by
  unfold unknownKeys
  constructor
  · intro h key hkey
    by_contra hne
    have hmem : key ∈ sortedStr (entries.keys.dedup.filter (· ∉ fields)) :=
      mem_sortedStr.mpr (List.mem_filter.mpr ⟨List.mem_dedup.mpr hkey, decide_eq_true hne⟩)
    rw [h] at hmem
    cases hmem
  · intro h
    refine List.eq_nil_iff_forall_not_mem.mpr fun key hkey => ?_
    have hfilter := List.mem_filter.mp (mem_sortedStr.mp hkey)
    exact of_decide_eq_true hfilter.2 (h key (List.mem_dedup.mp hfilter.1))

/-- Only the keys, the socket and the values of the other fields decide. -/
theorem validateDocument_congr {document merged : Dict}
    (hvalid : validateDocument (.dict document) = none)
    (hkeys : ∀ key ∈ merged.keys, key ∈ document.keys ∨ key = py "socket")
    (hsame : ∀ key, key ≠ py "socket" → merged.get? key = document.get? key)
    (hsocket : validateSocket (merged.get? (py "socket")) = none) :
    validateDocument (.dict merged) = none := by
  have hversion : merged.getD (py "version") .null = document.getD (py "version") .null := by
    unfold Dict.getD
    rw [hsame _ (by decide)]
  unfold validateDocument at hvalid ⊢
  simp only [firstError_cons, hversion, hsame (py "defaults") (by decide),
    hsame (py "agents") (by decide)] at hvalid ⊢
  refine ⟨if_neg (not_not_intro (unknownKeys_eq_nil.mpr fun key hkey => ?_)), hvalid.2.1, hsocket,
    hvalid.2.2.2⟩
  have hknown : unknownKeys document documentFields = [] := by
    by_contra hne
    exact absurd ((if_pos hne).symm.trans hvalid.1) nofun
  rcases hkeys key hkey with hmem | rfl
  · exact unknownKeys_eq_nil.mp hknown key hmem
  · decide

/-! ## The merged document -/

omit [Runtime] in
/-- The socket that `_merge_socket` writes. -/
theorem validateSocket_texts (path token : Option PyStr) :
    validateSocket (some (.dict (path.toList.map (fun p => (py "path", Json.str p)) ++
      token.toList.map fun t => (py "token", Json.str t)))) = none := by
  cases path <;> cases token <;> rfl

theorem mergeSocket_valid {document : Dict} (hvalid : validateDocument (.dict document) = none)
    (current : Dict) : validateDocument (.dict (mergeSocket document current)) = none := by
  unfold mergeSocket
  extract_lets incoming stored socket
  split
  · apply validateDocument_congr hvalid
    · intro key hkey
      rw [Dict.keys_set] at hkey
      split at hkey
      · exact .inl hkey
      · rcases List.mem_append.mp hkey with hkey | hkey
        · exact .inl hkey
        · exact .inr (List.mem_singleton.mp hkey)
    · intro key hne
      rw [Dict.get?_set, if_neg hne]
    · rw [Dict.get?_set, if_pos rfl]
      exact validateSocket_texts _ _
  · apply validateDocument_congr hvalid
    · intro key hkey
      exact .inl (Dict.mem_keys_pop.mp hkey).1
    · intro key hne
      rw [Dict.get?_pop, if_neg hne]
    · rw [Dict.get?_pop_self]
      rfl

theorem held_texts (path token : Option PyStr) :
    Held (.dict (path.toList.map (fun p => (py "path", Json.str p)) ++
      token.toList.map fun t => (py "token", Json.str t))) := by
  refine Json.forall_dict.mpr ⟨?_, fun kv hkv => ?_⟩
  · show (Dict.keys _).Nodup
    cases path with
    | none => cases token <;> simp [Dict.keys]
    | some p =>
      cases token with
      | none => simp [Dict.keys]
      | some t =>
        show [py "path", py "token"].Nodup
        decide
  · rcases List.mem_append.mp hkv with hkv | hkv
    · obtain ⟨p, -, rfl⟩ := List.mem_map.mp hkv
      trivial
    · obtain ⟨t, -, rfl⟩ := List.mem_map.mp hkv
      trivial

theorem mergeSocket_held {document : Dict} (hheld : Held (.dict document)) (current : Dict) :
    Held (.dict (mergeSocket document current)) := by
  obtain ⟨hnodup, hvalues⟩ := Json.forall_dict.mp hheld
  unfold mergeSocket
  extract_lets incoming stored socket
  split
  · refine Json.forall_dict.mpr ⟨Dict.nodup_keys_set hnodup _ _, fun kv hkv => ?_⟩
    unfold Dict.set at hkv
    split at hkv
    · obtain ⟨kw, hkw, rfl⟩ := List.mem_map.mp hkv
      by_cases hkey : kw.1 = py "socket"
      · rw [if_pos hkey]
        exact held_texts _ _
      · rw [if_neg hkey]
        exact hvalues kw hkw
    · rcases List.mem_append.mp hkv with hkv | hkv
      · exact hvalues kv hkv
      · rw [List.mem_singleton.mp hkv]
        exact held_texts _ _
  · refine Json.forall_dict.mpr ⟨?_, fun kv hkv => hvalues kv (List.mem_filter.mp hkv).1⟩
    exact List.Nodup.sublist (List.Sublist.map _ List.filter_sublist) hnodup

/-! ## The redacted round trip -/

omit [Runtime] in
/-- The fields of the socket that `_merge_socket` writes. -/
theorem get?_texts (path token : Option PyStr) (field : PyStr) :
    Dict.get? (path.toList.map (fun p => (py "path", Json.str p)) ++
      token.toList.map fun t => (py "token", Json.str t)) field =
      if field = py "path" then path.map Json.str
      else if field = py "token" then token.map Json.str else none := by
  rw [Dict.get?_append]
  by_cases hpath : field = py "path"
  · subst hpath
    cases path <;> cases token <;> rfl
  · cases path <;> cases token <;> simp [hpath, Dict.get?_cons]

omit [Runtime] in
/-- The socket of the merged document consists of the two fields that were picked. -/
theorem dictField_mergeSocket (document current : Dict) (field : PyStr) :
    Dict.get? (dictField (mergeSocket document current) (py "socket")) field =
      if field = py "path" then
        (pickPath (dictField document (py "socket")) (dictField current (py "socket"))).map Json.str
      else if field = py "token" then
        (pickToken (dictField document (py "socket")) (dictField current (py "socket"))).map Json.str
      else none := by
  rw [← get?_texts]
  unfold mergeSocket
  extract_lets incoming stored socket
  split
  · rw [dictField, Dict.get?_set, if_pos rfl]
  · rename_i hempty
    rw [dictField, Dict.get?_pop_self]
    exact congrArg (Dict.get? · field) (not_not.mp hempty).symm

omit [Runtime] in
theorem mergeSocket_other (document current : Dict) {key : PyStr} (hkey : key ≠ py "socket") :
    (mergeSocket document current).get? key = document.get? key := by
  unfold mergeSocket
  extract_lets incoming stored socket
  split
  · rw [Dict.get?_set, if_neg hkey]
  · rw [Dict.get?_pop, if_neg hkey]

/-- The socket of a valid document has no fields but the two, and these are texts. -/
theorem dictField_socket {document : Dict} (hvalid : validateDocument (.dict document) = none)
    (field : PyStr) : Dict.get? (dictField document (py "socket")) field =
      if field = py "path" then (strField (dictField document (py "socket")) (py "path")).map Json.str
      else if field = py "token" then
        (strField (dictField document (py "socket")) (py "token")).map Json.str
      else none := by
  have hsocket : validateSocket (document.get? (py "socket")) = none := by
    unfold validateDocument at hvalid
    simp only [firstError_cons] at hvalid
    exact hvalid.2.2.1
  unfold dictField
  cases hentry : document.get? (py "socket") with
  | none => simp [strField]
  | some value =>
    rw [hentry] at hsocket
    cases value with
    | dict socket =>
      unfold validateSocket at hsocket
      dsimp only at hsocket ⊢
      by_cases hunknown : unknownKeys socket [py "path", py "token"] ≠ []
      · rw [if_pos hunknown] at hsocket
        cases hsocket
      rw [if_neg hunknown] at hsocket
      by_cases hshape : (socket.any fun kv => !isStr kv.2) = true
      · rw [if_pos hshape] at hsocket
        cases hsocket
      have hknown := unknownKeys_eq_nil.mp (not_not.mp hunknown)
      cases hget : Dict.get? socket field with
      | none =>
        by_cases hpath : field = py "path"
        · subst hpath
          simp [strField, hget]
        · by_cases htoken : field = py "token"
          · subst htoken
            simp [strField, hget, hpath]
          · rw [if_neg hpath, if_neg htoken]
      | some value =>
        have hmem : (field, value) ∈ socket := mem_of_lookup hget
        have htext : isStr value = true := by
          rw [Bool.not_eq_true, List.any_eq_false] at hshape
          simpa using hshape _ hmem
        cases value with
        | str text =>
          have hfield := hknown field (List.mem_map.mpr ⟨_, hmem, rfl⟩)
          rw [List.mem_pair] at hfield
          rcases hfield with rfl | rfl
          · simp [strField, hget]
          · rw [if_neg (by decide), if_pos rfl]
            simp [strField, hget]
        | _ => cases htext
    | _ => cases hsocket

omit [Runtime] in
/-- The redacted socket has no field but the trimmed path, and only when that is not empty. -/
theorem redactDocument_socket (document : Dict) :
    dictField (redactDocument document) (py "socket") = [] ∨
      ∃ path, strField (dictField document (py "socket")) (py "path") = some path ∧
        dictField (redactDocument document) (py "socket") = [(py "path", .str (strip path))] := by
  unfold redactDocument
  split
  · rename_i path hpath
    split
    · right
      refine ⟨path, hpath, ?_⟩
      rw [dictField, Dict.get?_set, if_pos rfl]
      rfl
    · left
      rw [dictField, Dict.get?_pop_self]
  · left
    rw [dictField, Dict.get?_pop_self]

omit [Runtime] in
/-- An echo of the redacted socket picks what is stored. -/
theorem pick_redacted (document : Dict) :
    pickPath (dictField (redactDocument document) (py "socket")) (dictField document (py "socket")) =
        strField (dictField document (py "socket")) (py "path") ∧
      pickToken (dictField (redactDocument document) (py "socket"))
          (dictField document (py "socket")) =
        strField (dictField document (py "socket")) (py "token") := by
  rcases redactDocument_socket document with hempty | ⟨path, hpath, hsocket⟩
  · rw [hempty]
    exact ⟨rfl, rfl⟩
  · rw [hsocket]
    refine ⟨?_, rfl⟩
    have hincoming : strField [(py "path", Json.str (strip path))] (py "path") =
        some (strip path) := rfl
    unfold pickPath
    rw [hincoming, hpath]
    exact if_pos rfl

omit [Runtime] in
theorem dictField_congr {d e : Dict} {key : PyStr} (h : d.get? key = e.get? key) :
    dictField d key = dictField e key := by
  unfold dictField
  rw [h]

omit [Runtime] in
/-- The redacted document does not depend on the token. -/
theorem redactDocument_token (document socket : Dict) (token : Json)
    (hsocket : document.get? (py "socket") = some (.dict socket)) :
    redactDocument (document.set (py "socket") (.dict (socket.set (py "token") token))) =
      redactDocument document := by
  have hfields : dictField (document.set (py "socket") (.dict (socket.set (py "token") token)))
      (py "socket") = socket.set (py "token") token := by
    rw [dictField, Dict.get?_set, if_pos rfl]
  have hbefore : dictField document (py "socket") = socket := by
    rw [dictField, hsocket]
  have hpath : strField (socket.set (py "token") token) (py "path") =
      strField socket (py "path") := by
    rw [strField, Dict.get?_set, if_neg (by decide), strField]
  unfold redactDocument
  simp only [hfields, hpath, hbefore, Dict.pop_set, Dict.set_set]

/-- A read answers the redacted view of what it found. -/
theorem reply_get {setting : Setting} {outcome : ReadOutcome} {document : Dict} {raw : Option Bytes}
    {result : Result} (hread : readSnapshot setting.budget outcome = .ok (document, raw))
    (hrun : Prog.Path (handleSystemExecApprovalsGet setting) [⟨.read, outcome⟩] result) :
    result = .ok (snapshot setting (redactDocument document) raw) := by
  obtain ⟨found, rest, hevents, hreply⟩ := Prog.path_call_iff.mp hrun
  obtain ⟨hfound, -⟩ := List.cons.inj hevents
  cases hfound
  rw [(Prog.path_ret_iff.mp hreply).2, redactedSnapshot, hread]

/-- Editing the redacted view of a valid document, but not its socket, and merging the result keeps
the stored socket and every edited field; the view itself tells nothing of the token, and it is what
`system.execApprovals.get` answers where it reads the document. -/
theorem redacted_edit_keeps_socket (document edited : Dict)
    (hvalid : validateDocument (.dict document) = none)
    (hsocket : edited.get? (py "socket") = (redactDocument document).get? (py "socket")) :
    (∀ field, Dict.get? (dictField (mergeSocket edited document) (py "socket")) field =
        Dict.get? (dictField document (py "socket")) field) ∧
      (∀ key, key ≠ py "socket" → (mergeSocket edited document).get? key = edited.get? key) ∧
      Dict.get? (dictField (redactDocument document) (py "socket")) (py "token") = none ∧
      (∀ (socket : Dict) (token : Json), document.get? (py "socket") = some (.dict socket) →
        redactDocument (document.set (py "socket") (.dict (socket.set (py "token") token))) =
          redactDocument document) ∧
      ∀ (setting : Setting) (outcome : ReadOutcome) (raw : Option Bytes) (result : Result),
        readSnapshot setting.budget outcome = .ok (document, raw) →
        Prog.Path (handleSystemExecApprovalsGet setting) [⟨.read, outcome⟩] result →
          result = .ok (snapshot setting (redactDocument document) raw) := by
  refine ⟨fun field => ?_, fun key hkey => mergeSocket_other edited document hkey, ?_,
    fun socket token h => redactDocument_token document socket token h,
    fun setting outcome raw result => reply_get⟩
  · have hpick := pick_redacted document
    rw [dictField_mergeSocket, dictField_congr hsocket, hpick.1, hpick.2,
      dictField_socket hvalid]
  · rcases redactDocument_socket document with hempty | ⟨path, hpath, hredacted⟩
    · rw [hempty]
      rfl
    · rw [hredacted]
      rfl

/-- A document whose path is padded, with a token. -/
def paddedDocument : Dict :=
  [(py "version", .int 1), (py "socket", obj [("path", .str (py " /s.sock ")), ("token", .str (py "t"))])]

omit [Runtime] in
theorem redacted_edit_keeps_padded :
    Dict.get? (dictField (mergeSocket ((redactDocument paddedDocument).set (py "agents") (.dict []))
      paddedDocument) (py "socket")) (py "path") = some (.str (py " /s.sock ")) := by
  have hkeeps := @redacted_edit_keeps_socket (.ofTable []) paddedDocument
    ((redactDocument paddedDocument).set (py "agents") (.dict [])) rfl
    (by rw [Dict.get?_set, if_neg (by decide)])
  rw [hkeeps.1]
  rfl

/-! ## Reading back -/

/-- A document that could be serialised was within the depth, the digits and the encoding. -/
theorem serializeDocument_eq_ok {budget : Nat} {document : Dict} {raw : Bytes} :
    serializeDocument budget document = .ok raw ↔ dumpsError budget (.dict document) = none ∧
      encodeUtf8 (indentText 0 (.dict document) ++ [10]) = some raw := by
  unfold serializeDocument dumpsIndent
  cases dumpsError budget (.dict document) with
  | some err => exact iff_of_false nofun nofun
  | none =>
    simp only [true_and]
    cases encodeUtf8 (indentText 0 (.dict document) ++ [10]) with
    | none => exact iff_of_false nofun nofun
    | some bytes => simp

/-- What was serialised is read as the same document. -/
theorem readSnapshot_serialized {budget : Nat} {document : Dict} {raw : Bytes}
    (hheld : Held (.dict document)) (hvalid : validateDocument (.dict document) = none)
    (hraw : serializeDocument budget document = .ok raw) :
    readSnapshot budget (.bytes raw) = .ok (document, some raw) := by
  obtain ⟨hroom, hencoded⟩ := serializeDocument_eq_ok.mp hraw
  have htext : ∀ c ∈ indentText 0 (.dict document), unencodable c = false := by
    intro c hc
    unfold encodeUtf8 at hencoded
    split at hencoded
    · cases hencoded
    · next hnone =>
      rw [Bool.not_eq_true, List.any_eq_false] at hnone
      exact Bool.not_eq_true _ ▸ hnone c (List.mem_append_left _ hc)
  simp only [readSnapshot, decodeUtf8_encodeUtf8 hencoded, loads_indentText hheld hroom htext,
    hvalid, ne_eq, not_true_eq_false, if_false]

/-- Whatever a file holds, its bytes are what was compared. -/
theorem stored_of_bytes {budget : Nat} {raw : Bytes} {current : Dict} {stored : Option Bytes}
    (h : readSnapshot budget (.bytes raw) = .ok (current, stored)) : stored = some raw := by
  unfold readSnapshot at h
  simp only at h
  split at h
  · exact (congrArg Prod.snd (Except.ok.inj h)).symm
  · split at h
    · cases h
    · exact (congrArg Prod.snd (Except.ok.inj h)).symm
    · split at h <;> exact (congrArg Prod.snd (Except.ok.inj h)).symm
    · exact (congrArg Prod.snd (Except.ok.inj h)).symm

end HassNode.ExecApprovals
