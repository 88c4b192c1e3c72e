import HassNode.ApprovalHookIntegrity
import HassNode.Library.Clock

/-!
# How long a grant is in force

`Kept` is what the store is for: a grant holds for its time to live unless the session ended after it
was given.  The store answers from one map under the text of a key, and `revokeSession` finds the
keys of a session by how they begin; `grants_exact` says that this comes to the same answer.
-/

namespace HassNode.NodeApproval

open Py Js ConfigMutation Clock

/-- What `revokeSession` looks for begins the keys of that session and no other. -/
theorem startsWith_keyOf (sessionKey command action ended : JsStr) :
    Js.startsWith (keyOf sessionKey command action)
      (js "[" ++ stringify (.str ended) ++ js ",") = true ↔ sessionKey = ended := by
  have hquoted : stringify (.str ended) = quoteJSONString ended := rfl
  have hbegin : Encodes (js "[" ++ quoteJSONString ended ++ js ",")
      (91 :: (esString (decode ended) ++ [44])) :=
    ((Encodes.js "[").append (encodes_quoteJSONString ended)).append (Encodes.js ",")
  unfold Js.startsWith
  rw [hquoted, List.isPrefixOf_iff_prefix]
  constructor
  · rintro ⟨rest, hrest⟩
    have htext : keyText sessionKey command action =
        91 :: (esString (decode ended) ++ (44 :: decode rest)) := by
      rw [← (encodes_keyOf sessionKey command action).decode_eq, ← hrest, hbegin.1,
        decode_encode_append hbegin.2]
      simp
    -- The quote that closes the session key is not part of its escaped text.
    exact decode_injective (esString_cancel (List.cons.inj htext).2).1
  · rintro rfl
    have hkey : keyText sessionKey command action =
        (91 :: (esString (decode sessionKey) ++ [44])) ++
          (esString (decode command) ++ (44 :: (esString (decode action) ++ [93]))) := by
      simp [keyText]
    rw [(encodes_keyOf sessionKey command action).1, hkey, encode_append, ← hbegin.1]
    exact List.prefix_append _ _

/-- The reading of the clock at an event. -/
def GrantEvent.nowMs? : GrantEvent → Option Int
  | .granted _ _ _ nowMs => some nowMs
  | .asked _ _ _ nowMs => some nowMs
  | .sessionEnded _ => none

namespace GrantStore

variable {sessionKey command action : JsStr}

/-! ## One operation and one key -/

/-- The answer of `has`. -/
theorem has_iff (store : GrantStore) (nowMs : Int) :
    (store.has sessionKey command action nowMs).1 = true ↔
      ∃ expiresAt, store.lookup (keyOf sessionKey command action) = some expiresAt ∧
        nowMs < expiresAt := by
  unfold has
  cases store.lookup (keyOf sessionKey command action) with
  | none => simp
  | some expiresAt =>
    show (if nowMs ≥ expiresAt then _ else _ : Bool × GrantStore).1 = true ↔ _
    by_cases hexpired : nowMs ≥ expiresAt
    · simp [hexpired]
    · simp [hexpired, not_le.mp hexpired]

theorem lookup_grant (store : GrantStore) (s c a : JsStr) (nowMs : Int) :
    (store.grant s c a nowMs).lookup (keyOf sessionKey command action) =
      if sessionKey = s ∧ command = c ∧ action = a then some (nowMs + grantTtlMs)
      else store.lookup (keyOf sessionKey command action) := by
  show (store.set (keyOf s c a) (nowMs + grantTtlMs)).lookup _ = _
  rw [OrderedDict.lookup_set]
  by_cases hsame : sessionKey = s ∧ command = c ∧ action = a
  · obtain ⟨rfl, rfl, rfl⟩ := hsame
    simp
  · have hkey : keyOf sessionKey command action ≠ keyOf s c a := fun h => hsame (keyOf_injective h)
    rw [if_neg hkey, if_neg hsame]

theorem lookup_revokeSession (store : GrantStore) (ended : JsStr) :
    (store.revokeSession ended).lookup (keyOf sessionKey command action) =
      if sessionKey = ended then none else store.lookup (keyOf sessionKey command action) := by
  apply Option.ext
  intro expiresAt
  rw [← Option.mem_def, AList.mem_lookup_iff]
  show _ ∈ List.filter _ _ ↔ _
  rw [List.mem_filter]
  show _ ∧ (!Js.startsWith (keyOf sessionKey command action) _) = true ↔ _
  by_cases hended : sessionKey = ended
  · rw [(startsWith_keyOf sessionKey command action ended).mpr hended]
    simp [hended]
  · rw [Bool.eq_false_iff.mpr fun h => hended ((startsWith_keyOf _ _ _ _).mp h)]
    simp [hended, ← AList.mem_lookup_iff]

/-- A question never changes what a later one is answered. -/
theorem lookup_has_live (store : GrantStore) (s c a : JsStr) {askedAt nowMs expiresAt : Int}
    (hlater : askedAt ≤ nowMs) (hlive : nowMs < expiresAt) :
    (store.has s c a askedAt).2.lookup (keyOf sessionKey command action) = some expiresAt ↔
      store.lookup (keyOf sessionKey command action) = some expiresAt := by
  constructor
  · exact has_lookup
  · intro hlookup
    unfold has
    cases hasked : store.lookup (keyOf s c a) with
    | none => exact hlookup
    | some expired =>
      show (if askedAt ≥ expired then _ else _ : Bool × GrantStore).2.lookup _ = _
      by_cases hexpired : askedAt ≥ expired
      · rw [if_pos hexpired]
        show AList.lookup _ (store.erase (keyOf s c a)) = _
        have hne : keyOf sessionKey command action ≠ keyOf s c a := by
          intro hkey
          rw [hkey, hasked, Option.some.injEq] at hlookup
          omega
        rw [OrderedDict.lookup_erase_eq, if_neg hne]
        exact hlookup
      · rw [if_neg hexpired]
        exact hlookup

/-- The end of a session says nothing about another one. -/
theorem revokeSession_frame (store : GrantStore) {ended : JsStr} (hother : sessionKey ≠ ended)
    (nowMs : Int) : ((store.revokeSession ended).has sessionKey command action nowMs).1 =
      (store.has sessionKey command action nowMs).1 := by
  rw [Bool.eq_iff_iff, has_iff, has_iff, lookup_revokeSession, if_neg hother]

/-! ## Runs -/

/-- The grant that was given at `grantedAt` is not followed by the end of its session. -/
def Kept (events : List GrantEvent) (sessionKey command action : JsStr) (grantedAt : Int) : Prop :=
  ∃ before later, events = before ++ .granted sessionKey command action grantedAt :: later ∧
    .sessionEnded sessionKey ∉ later

theorem kept_snoc {events : List GrantEvent} {event : GrantEvent} {grantedAt : Int} :
    Kept (events ++ [event]) sessionKey command action grantedAt ↔
      event = .granted sessionKey command action grantedAt ∨
        event ≠ .sessionEnded sessionKey ∧ Kept events sessionKey command action grantedAt := by
  constructor
  · rintro ⟨before, later, hevents, hlater⟩
    cases List.eq_nil_or_concat later with
    | inl hnil =>
      subst hnil
      exact .inl (List.cons.inj (List.append_inj' hevents rfl).2).1
    | inr hsnoc =>
      obtain ⟨later, last, rfl⟩ := hsnoc
      rw [List.concat_eq_append, ← List.cons_append, ← List.append_assoc] at hevents
      have hparts := List.append_inj' hevents rfl
      rw [List.concat_eq_append, List.mem_append, not_or] at hlater
      rw [(List.cons.inj hparts.2).1]
      refine .inr ⟨fun hended => hlater.2 ?_, before, later, hparts.1, hlater.1⟩
      rw [hended]
      exact List.mem_singleton_self _
  · rintro (rfl | ⟨hevent, before, later, rfl, hlater⟩)
    · exact ⟨events, [], rfl, List.not_mem_nil⟩
    · refine ⟨before, later ++ [event], by simp, ?_⟩
      rw [List.mem_append, List.mem_singleton, not_or]
      exact ⟨hlater, fun h => hevent h.symm⟩

/-- A grant was given by now. -/
theorem Kept.grantedAt_le {events : List GrantEvent} {grantedAt nowMs : Int}
    (h : Kept events sessionKey command action grantedAt) (htimes : Forward GrantEvent.nowMs? events nowMs) :
    grantedAt ≤ nowMs := by
  obtain ⟨before, later, rfl, _⟩ := h
  exact htimes.le (List.mem_append_right _ List.mem_cons_self) rfl

/-- A grant that was kept has not run out. -/
def InForce (events : List GrantEvent) (sessionKey command action : JsStr) (nowMs : Int) : Prop :=
  ∃ grantedAt, Kept events sessionKey command action grantedAt ∧ nowMs < grantedAt + grantTtlMs

/-- The store says the same of a key as the events do. -/
def Exact (events : List GrantEvent) (store : GrantStore) : Prop :=
  ∀ sessionKey command action nowMs, Forward GrantEvent.nowMs? events nowMs →
    ((∃ expiresAt, store.lookup (keyOf sessionKey command action) = some expiresAt ∧
      nowMs < expiresAt) ↔ InForce events sessionKey command action nowMs)

theorem exact_empty : Exact [] ∅ := by
  intro sessionKey command action nowMs _
  constructor
  · rintro ⟨expiresAt, hlookup, _⟩
    cases hlookup
  · rintro ⟨grantedAt, ⟨before, later, hevents, _⟩, _⟩
    simp at hevents

theorem inForce_snoc {events : List GrantEvent} {event : GrantEvent} {nowMs : Int} :
    InForce (events ++ [event]) sessionKey command action nowMs ↔
      (∃ grantedAt, event = .granted sessionKey command action grantedAt ∧
        nowMs < grantedAt + grantTtlMs) ∨
        event ≠ .sessionEnded sessionKey ∧ InForce events sessionKey command action nowMs := by
  unfold InForce
  simp only [kept_snoc]
  constructor
  · rintro ⟨grantedAt, hevent | ⟨hevent, hkept⟩, hlive⟩
    · exact .inl ⟨grantedAt, hevent, hlive⟩
    · exact .inr ⟨hevent, grantedAt, hkept, hlive⟩
  · rintro (⟨grantedAt, hevent, hlive⟩ | ⟨hevent, grantedAt, hkept, hlive⟩)
    · exact ⟨grantedAt, .inl hevent, hlive⟩
    · exact ⟨grantedAt, .inr ⟨hevent, hkept⟩, hlive⟩

/-- One event keeps the store exact. -/
theorem Exact.after {events : List GrantEvent} {store : GrantStore} (h : Exact events store)
    (event : GrantEvent) : Exact (events ++ [event]) (store.after event) := by
  intro sessionKey command action nowMs htimes
  obtain ⟨hnow, htime⟩ := forward_snoc.mp htimes
  have hpast := h sessionKey command action nowMs hnow
  rw [inForce_snoc]
  cases event with
  | granted s c a grantedAt =>
    show (∃ expiresAt, (store.grant s c a grantedAt).lookup _ = some expiresAt ∧ _) ↔ _
    simp only [lookup_grant]
    by_cases hsame : sessionKey = s ∧ command = c ∧ action = a
    · obtain ⟨rfl, rfl, rfl⟩ := hsame
      rw [if_pos ⟨rfl, rfl, rfl⟩]
      constructor
      · rintro ⟨expiresAt, hexpires, hlive⟩
        cases hexpires
        exact .inl ⟨grantedAt, rfl, hlive⟩
      · -- An earlier grant of the key runs out before this one does.
        rintro (⟨_, hevent, hlive⟩ | ⟨_, earlier, hkept, hlive⟩)
        · cases hevent
          exact ⟨_, rfl, hlive⟩
        · have hle := hkept.grantedAt_le (htime grantedAt rfl).1
          exact ⟨_, rfl, by omega⟩
    · rw [if_neg hsame, hpast]
      constructor
      · intro hforce
        exact .inr ⟨GrantEvent.noConfusion, hforce⟩
      · rintro (⟨_, hevent, _⟩ | ⟨_, hforce⟩)
        · cases hevent
          exact absurd ⟨rfl, rfl, rfl⟩ hsame
        · exact hforce
  | asked s c a askedAt =>
    show (∃ expiresAt, (store.has s c a askedAt).2.lookup _ = some expiresAt ∧ _) ↔ _
    have hasked : (∃ expiresAt, (store.has s c a askedAt).2.lookup
        (keyOf sessionKey command action) = some expiresAt ∧ nowMs < expiresAt) ↔
        InForce events sessionKey command action nowMs := by
      rw [← hpast]
      apply exists_congr
      intro expiresAt
      apply and_congr_left
      exact lookup_has_live store s c a (htime askedAt rfl).2
    rw [hasked]
    constructor
    · intro hforce
      exact .inr ⟨GrantEvent.noConfusion, hforce⟩
    · rintro (⟨_, hevent, _⟩ | ⟨_, hforce⟩)
      · cases hevent
      · exact hforce
  | sessionEnded ended =>
    show (∃ expiresAt, (store.revokeSession ended).lookup _ = some expiresAt ∧ _) ↔ _
    simp only [lookup_revokeSession]
    by_cases hended : sessionKey = ended
    · subst hended
      simp
    · have hevent : GrantEvent.sessionEnded ended ≠ .sessionEnded sessionKey := by
        intro heq
        cases heq
        exact hended rfl
      rw [if_neg hended, hpast]
      simp [hevent]

/-- The store of a plugin is exact. -/
theorem exact_of (events : List GrantEvent) : Exact events (of events) := by
  induction events using List.reverseRecOn with
  | nil => exact exact_empty
  | append_singleton events event ih =>
    unfold of at ih ⊢
    rw [List.foldl_append]
    exact ih.after event

/-- At every time the clock may show next, the store answers for a session, command and action just
as the grants and the ends of that session do, and the end of another session changes no answer. -/
theorem grants_exact (events : List GrantEvent) (sessionKey command action : JsStr) (nowMs : Int) :
    (Forward GrantEvent.nowMs? events nowMs →
      (((of events).has sessionKey command action nowMs).1 = true ↔
        InForce events sessionKey command action nowMs)) ∧
      ∀ ended, sessionKey ≠ ended →
        ((of (events ++ [.sessionEnded ended])).has sessionKey command action nowMs).1 =
          ((of events).has sessionKey command action nowMs).1 := by
  constructor
  · intro htimes
    rw [has_iff]
    exact exact_of events sessionKey command action nowMs htimes
  · intro ended hother
    have hstep : of (events ++ [.sessionEnded ended]) = (of events).revokeSession ended := by
      unfold of
      rw [List.foldl_append]
      rfl
    rw [hstep]
    exact revokeSession_frame (of events) hother nowMs

/-- A grant under a session key of quotes and commas outlives the end of a session whose key it
begins with. -/
theorem grants_exact_sample :
    ((of [.granted (js "a\",\"b") (js "fs.patch") (js "") 5, .sessionEnded (js "a")]).has
      (js "a\",\"b") (js "fs.patch") (js "") 3600004).1 = true := by
  have hother : js "a\",\"b" ≠ js "a" := by decide
  refine ((grants_exact [.granted (js "a\",\"b") (js "fs.patch") (js "") 5, .sessionEnded (js "a")]
    (js "a\",\"b") (js "fs.patch") (js "") 3600004).1 (by decide)).mpr ?_
  refine ⟨5, ⟨[], [.sessionEnded (js "a")], rfl, ?_⟩, by decide⟩
  intro hended
  exact hother (GrantEvent.sessionEnded.inj (List.mem_singleton.mp hended))

end GrantStore

end HassNode.NodeApproval
