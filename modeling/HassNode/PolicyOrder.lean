import HassNode.ExecDocument
import HassNode.Library.CanonicalOrder

/-!
# The policy snapshot and the order of the allowlist

`_resolve_policy` drops repeated rules and sorts the rest.  A rule without an `argPattern` and one with
an empty one are two rules of one sort key: the order of their entries shows in the snapshot, and that
of no others.
-/

namespace HassNode.ExecApprovals

open Py HaClient CanonicalOrder

/-! ## Rules -/

/-- What tells one rule from another. -/
structure RuleTriple where
  pattern : PyStr
  argPattern : Option PyStr
  allowAlways : Bool
  deriving DecidableEq

def RuleTriple.rule (t : RuleTriple) : Dict :=
  [(py "pattern", .str t.pattern)] ++
    t.argPattern.toList.map (fun s => (py "argPattern", .str s)) ++
    if t.allowAlways then [(py "source", .str (py "allow-always"))] else []

def ruleTriple : Json → Option RuleTriple
  | .dict entry =>
    (strField entry (py "pattern")).map fun pattern =>
      ⟨pattern, strField entry (py "argPattern"), sourceOk entry⟩
  | _ => none

theorem allowlistRule_eq (entry : Json) :
    allowlistRule entry = (ruleTriple entry).map RuleTriple.rule := by
  cases entry with
  | dict entry =>
    unfold allowlistRule ruleTriple
    dsimp only
    cases strField entry (py "pattern") <;> rfl
  | _ => rfl

theorem strField_rule (t : RuleTriple) :
    strField t.rule (py "pattern") = some t.pattern ∧
      strField t.rule (py "argPattern") = t.argPattern ∧
      strField t.rule (py "source") = if t.allowAlways then some (py "allow-always") else none := by
  have ⟨pattern, argPattern, allowAlways⟩ := t
  cases argPattern <;> cases allowAlways <;> exact ⟨rfl, rfl, rfl⟩

theorem rule_injective : Function.Injective RuleTriple.rule := by
  intro t u h
  have ht := strField_rule t
  have hu := strField_rule u
  rw [h] at ht
  have hpattern : t.pattern = u.pattern := Option.some.inj (ht.1.symm.trans hu.1)
  have hargs : t.argPattern = u.argPattern := ht.2.1.symm.trans hu.2.1
  have hsource := ht.2.2.symm.trans hu.2.2
  have ⟨pattern, argPattern, allowAlways⟩ := t
  have ⟨pattern', argPattern', allowAlways'⟩ := u
  simp only at hpattern hargs hsource
  subst hpattern hargs
  cases allowAlways <;> cases allowAlways' <;> first | rfl | cases hsource

/-- The sort key, in which an absent text is an empty one. -/
def RuleTriple.key (t : RuleTriple) : List PyStr := ruleKey t.rule

theorem RuleTriple.key_eq (t : RuleTriple) : t.key =
    [t.pattern, t.argPattern.getD [], if t.allowAlways then py "allow-always" else []] := by
  have ⟨hpattern, hargs, hsource⟩ := strField_rule t
  unfold RuleTriple.key ruleKey
  rw [hpattern, hargs, hsource]
  cases t.allowAlways <;> rfl

/-- Two rules share their key exactly if they differ at most in an absent and an empty `argPattern`. -/
theorem RuleTriple.key_eq_iff {t u : RuleTriple} : t.key = u.key ↔
    t.pattern = u.pattern ∧ t.allowAlways = u.allowAlways ∧
      t.argPattern.getD [] = u.argPattern.getD [] := by
  rw [t.key_eq, u.key_eq]
  simp only [List.cons.injEq, and_true]
  have hsource : (if t.allowAlways then py "allow-always" else []) =
      (if u.allowAlways then py "allow-always" else []) ↔ t.allowAlways = u.allowAlways := by
    cases t.allowAlways <;> cases u.allowAlways <;> decide
  rw [hsource]
  tauto

section

variable {α : Type} [LinearOrder α]

theorem nil_le_list (t : List α) : [] ≤ t := by
  cases t with
  | nil => exact le_rfl
  | cons b t => exact (List.nil_lt_cons b t).le

theorem cons_le_list {a b : α} {s t : List α} : a :: s ≤ b :: t ↔ a < b ∨ a = b ∧ s ≤ t := by
  rw [le_iff_lt_or_eq, List.cons_lt_cons_iff, List.cons.injEq, le_iff_lt_or_eq (a := s)]
  tauto

end

theorem le_iff {s t : PyStr} : le s t = true ↔ s ≤ t := by
  induction s generalizing t with
  | nil => exact iff_of_true rfl (nil_le_list t)
  | cons a s ih =>
    cases t with
    | nil =>
      apply iff_of_false Bool.false_ne_true
      exact not_le_of_gt (List.nil_lt_cons a s)
    | cons b t => simp [le, ih, cons_le_list]

theorem keyLe_iff {as bs : List PyStr} : keyLe as bs = true ↔ as ≤ bs := by
  induction as generalizing bs with
  | nil => exact iff_of_true rfl (nil_le_list bs)
  | cons a as ih =>
    cases bs with
    | nil =>
      apply iff_of_false Bool.false_ne_true
      exact not_le_of_gt (List.nil_lt_cons a as)
    | cons b bs =>
      unfold keyLe
      rw [cons_le_list]
      by_cases hab : a = b
      · subst hab
        simp [ih]
      · rw [if_neg hab, le_iff, le_iff_lt_or_eq]
        simp [hab]

/-! ## The two lists -/

def wildcardPolicy (document : Dict) : Dict := dictField (dictField document (py "agents")) (py "*")

def exactPolicy (document : Dict) : Option PyStr → Dict
  | some agentId => if agentId = [] then [] else dictField (dictField document (py "agents")) agentId
  | none => []

/-- The entries of the wildcard policy, then those of the agent's own. -/
def policyEntries (document : Dict) (agentId : Option PyStr) : List Json :=
  allowlistOf (wildcardPolicy document) ++ allowlistOf (exactPolicy document agentId)

def triples (entries : List Json) : List RuleTriple := entries.filterMap ruleTriple

/-- `field`. -/
def policyField (document : Dict) (agentId : Option PyStr) (name : PyStr) : Json :=
  (exactPolicy document agentId).getD name ((wildcardPolicy document).getD name
    ((dictField document (py "defaults")).getD name (defaultPolicy.getD name .null)))

/-- A rule whose texts can be sorted by their bytes. -/
def RuleTriple.Encodable (t : RuleTriple) : Prop := ∀ text ∈ t.key, text.any unencodable = false

instance (t : RuleTriple) : Decidable t.Encodable :=
  inferInstanceAs (Decidable (∀ text ∈ t.key, text.any unencodable = false))

theorem rules_eq (entries : List Json) :
    (entries.filterMap allowlistRule).reverse.dedup.reverse =
      (firsts (triples entries)).map RuleTriple.rule := by
  have hmap : entries.filterMap allowlistRule = (triples entries).map RuleTriple.rule := by
    unfold triples
    rw [List.map_filterMap]
    exact congrFun (congrArg _ (funext allowlistRule_eq)) entries
  rw [hmap, ← List.map_reverse, List.dedup_map_of_injective rule_injective, ← List.map_reverse]
  rfl

/-- The snapshot is made of the four fields and the canonical list of the rules. -/
theorem resolvePolicy_eq (document : Dict) (agentId : Option PyStr) :
    resolvePolicy document agentId =
      if ∀ t ∈ triples (policyEntries document agentId), t.Encodable then
        .ok [(py "security", policyField document agentId (py "security")),
          (py "ask", policyField document agentId (py "ask")),
          (py "askFallback", policyField document agentId (py "askFallback")),
          (py "autoAllowSkills", policyField document agentId (py "autoAllowSkills")),
          (py "allowlistRules", .list
            ((canonical RuleTriple.key (triples (policyEntries document agentId))).map
              fun t => .dict t.rule))]
      else .error (.other (py "UnicodeEncodeError")) := by
  -- sorting the rules by their keys sorts the triples by theirs
  have hsorted : ∀ ts : List RuleTriple,
      (ts.map RuleTriple.rule).insertionSort (fun a b => keyLe (ruleKey a) (ruleKey b)) =
        (ts.insertionSort fun a b => a.key ≤ b.key).map RuleTriple.rule := by
    intro ts
    exact (List.map_insertionSort _ _ RuleTriple.rule ts fun a _ b _ => keyLe_iff.symm).symm
  have hany : ∀ ts : List RuleTriple, ((firsts ts).map RuleTriple.rule).any (fun rule =>
      (ruleKey rule).any fun text => text.any unencodable) = true ↔ ¬ ∀ t ∈ ts, t.Encodable := by
    intro ts
    simp [RuleTriple.Encodable, RuleTriple.key]
  have hunfold : resolvePolicy document agentId =
      let rules := ((policyEntries document agentId).filterMap allowlistRule).reverse.dedup.reverse
      if rules.any fun rule => (ruleKey rule).any fun text => text.any unencodable then
        .error (.other (py "UnicodeEncodeError"))
      else .ok [(py "security", policyField document agentId (py "security")),
          (py "ask", policyField document agentId (py "ask")),
          (py "askFallback", policyField document agentId (py "askFallback")),
          (py "autoAllowSkills", policyField document agentId (py "autoAllowSkills")),
          (py "allowlistRules", .list
            ((rules.insertionSort fun a b => keyLe (ruleKey a) (ruleKey b)).map .dict))] := by
    cases agentId <;> rfl
  rw [hunfold]
  simp only [rules_eq, hany, hsorted, ite_not, List.map_map]
  rfl

/-! ## Order -/

/-- The other document has the same policies but for the order of the entries in the two lists. -/
structure Rearranged [Runtime] (document other : Dict) (agentId : Option PyStr) : Prop where
  valid : validateDocument (.dict other) = none
  defaults : dictField other (py "defaults") = dictField document (py "defaults")
  wildcard : ∀ name, name ≠ py "allowlist" →
    Dict.get? (wildcardPolicy other) name = Dict.get? (wildcardPolicy document) name
  exact_ : ∀ name, name ≠ py "allowlist" →
    Dict.get? (exactPolicy other agentId) name = Dict.get? (exactPolicy document agentId) name
  entries : (policyEntries other agentId).Perm (policyEntries document agentId)

/-- Two entries make rules that differ only in an absent and an empty `argPattern`, and the rules can be
sorted. -/
def Tied (document : Dict) (agentId : Option PyStr) : Prop :=
  (∀ t ∈ triples (policyEntries document agentId), t.Encodable) ∧
    ∃ t ∈ triples (policyEntries document agentId),
      t.argPattern = none ∧ { t with argPattern := some [] } ∈ triples (policyEntries document agentId)

theorem keys_distinct {ts : List RuleTriple}
    (hts : ¬ ∃ t ∈ ts, t.argPattern = none ∧ { t with argPattern := some [] } ∈ ts) :
    ∀ t ∈ ts, ∀ u ∈ ts, t.key = u.key → t = u := by
  intro t ht u hu hkey
  have ⟨hpattern, hsource, hargs⟩ := RuleTriple.key_eq_iff.mp hkey
  have ⟨pattern, argPattern, allowAlways⟩ := t
  have ⟨pattern', argPattern', allowAlways'⟩ := u
  simp only at hpattern hsource hargs
  subst hpattern hsource
  -- the texts agree but for one that is absent where the other is empty
  cases argPattern with
  | none =>
    cases argPattern' with
    | none => rfl
    | some s =>
      have hs : s = [] := hargs.symm
      exact absurd ⟨_, ht, rfl, hs ▸ hu⟩ hts
  | some s =>
    cases argPattern' with
    | none =>
      have hs : s = [] := hargs
      exact absurd ⟨_, hu, rfl, hs ▸ ht⟩ hts
    | some s' =>
      have hs : s = s' := hargs
      rw [hs]

theorem policyField_rearranged [Runtime] {document other : Dict} {agentId : Option PyStr}
    (h : Rearranged document other agentId) {name : PyStr} (hname : name ≠ py "allowlist") :
    policyField other agentId name = policyField document agentId name := by
  unfold policyField Dict.getD
  rw [h.exact_ name hname, h.wildcard name hname, h.defaults]

/-- Without two tied rules no rearrangement shows. -/
theorem resolvePolicy_rearranged [Runtime] {document other : Dict} {agentId : Option PyStr}
    (h : Rearranged document other agentId) (htied : ¬ Tied document agentId) :
    resolvePolicy other agentId = resolvePolicy document agentId := by
  have hperm : (triples (policyEntries other agentId)).Perm
      (triples (policyEntries document agentId)) := h.entries.filterMap _
  have hmem : ∀ t, t ∈ triples (policyEntries other agentId) ↔
      t ∈ triples (policyEntries document agentId) := fun t => hperm.mem_iff
  rw [resolvePolicy_eq, resolvePolicy_eq]
  simp only [hmem, policyField_rearranged h (by decide : py "security" ≠ py "allowlist"),
    policyField_rearranged h (by decide : py "ask" ≠ py "allowlist"),
    policyField_rearranged h (by decide : py "askFallback" ≠ py "allowlist"),
    policyField_rearranged h (by decide : py "autoAllowSkills" ≠ py "allowlist")]
  split
  · rename_i hencodable
    have hdistinct := keys_distinct fun htie => htied ⟨hencodable, htie⟩
    rw [canonical_congr hmem fun t ht u hu => hdistinct t ((hmem t).mp ht) u ((hmem u).mp hu)]
  · rfl

/-! ## What a check of an entry depends on -/

section

variable [Runtime]

omit [Runtime] in
theorem invalid_ne_none (message : PyStr) : invalid message ≠ none := nofun

omit [Runtime] in
theorem check_eq_none {c : Prop} [Decidable c] {message : PyStr} :
    (if c then none else invalid message) = none ↔ c := by
  split <;> simp [*, invalid_ne_none]

omit [Runtime] in
theorem refusal_eq_none {c : Prop} [Decidable c] {message : PyStr} :
    (if c then invalid message else none) = none ↔ ¬ c := by
  split <;> simp [*, invalid_ne_none]

theorem validateFields_eq_none {scope : PyStr} {entries : Dict} {fields : List PyStr} :
    validateFields scope entries fields = none ↔ unknownKeys entries fields = [] := by
  unfold validateFields
  rw [refusal_eq_none, not_not]

omit [Runtime] in
theorem optionalString_scope {scope : PyStr} (other : PyStr) {container : Dict} {field : PyStr}
    (h : validateOptionalString scope container field = none) :
    validateOptionalString other container field = none := by
  unfold validateOptionalString at h ⊢
  split <;> simp_all [invalid_ne_none]

omit [Runtime] in
theorem minLengthString_scope {scope : PyStr} (other : PyStr) {value : Json}
    (h : validateMinLengthString scope value = none) :
    validateMinLengthString other value = none := by
  unfold validateMinLengthString at h ⊢
  split <;> simp_all [invalid_ne_none]

omit [Runtime] in
theorem timestamp_scope {scope : PyStr} (other : PyStr) {container : Dict} {field : PyStr}
    {required : Bool} (h : validateTimestamp scope container field required = none) :
    validateTimestamp other container field required = none := by
  unfold validateTimestamp at h ⊢
  split <;> simp_all [invalid_ne_none]

/-- The scope is only for the messages. -/
theorem allowlistEntry_scope {scope : PyStr} (other : PyStr) {entry : Json}
    (h : validateAllowlistEntry scope entry = none) : validateAllowlistEntry other entry = none := by
  cases entry with
  | dict entry =>
    have hall := firstError_iff.mp h
    apply firstError_iff.mpr
    simp only [List.forall_mem_append, List.forall_mem_cons, List.forall_mem_map, check_eq_none,
      refusal_eq_none, validateFields_eq_none] at hall ⊢
    have ⟨⟨⟨hfields, hpattern, hid, hsource, _⟩, hcommand, hargs, hused, hresolved, _⟩, htime, _⟩ :=
      hall
    refine ⟨⟨⟨hfields, hpattern, ?_, hsource, nofun⟩, optionalString_scope other hcommand,
      optionalString_scope other hargs, optionalString_scope other hused,
      optionalString_scope other hresolved, nofun⟩, timestamp_scope other htime, nofun⟩
    cases hget : Dict.get? entry (py "id") with
    | none => rfl
    | some value =>
      rw [hget] at hid
      exact minLengthString_scope _ hid
  | _ => cases h

/-! ## Replacing the two lists -/

/-- The policies with the allowlist of one of them replaced. -/
def withAllowlist (agents : Dict) (key : PyStr) (entries : List Json) : Dict :=
  if entries = [] then agents
  else agents.set key (.dict ((dictField agents key).set (py "allowlist") (.list entries)))

omit [Runtime] in
theorem dictField_set (agents : Dict) (key other : PyStr) (policy : Dict) :
    dictField (agents.set key (.dict policy)) other =
      if other = key then policy else dictField agents other := by
  unfold dictField
  rw [Dict.get?_set]
  by_cases hkey : other = key
  · rw [if_pos hkey, if_pos hkey]
  · rw [if_neg hkey, if_neg hkey]

omit [Runtime] in
theorem dictField_withAllowlist_ne {agents : Dict} {key other : PyStr} (entries : List Json)
    (hne : other ≠ key) :
    dictField (withAllowlist agents key entries) other = dictField agents other := by
  unfold withAllowlist
  split
  · rfl
  · rw [dictField_set, if_neg hne]

omit [Runtime] in
theorem allowlistOf_withAllowlist {agents : Dict} {key : PyStr} {entries : List Json}
    (hlength : entries.length = (allowlistOf (dictField agents key)).length) :
    allowlistOf (dictField (withAllowlist agents key entries) key) = entries := by
  unfold withAllowlist
  split
  · rename_i hnil
    rw [hnil] at hlength ⊢
    exact List.eq_nil_of_length_eq_zero hlength.symm
  · rw [dictField_set, if_pos rfl]
    unfold allowlistOf
    rw [Dict.get?_set, if_pos rfl]

omit [Runtime] in
theorem get?_withAllowlist (agents : Dict) (key : PyStr) (entries : List Json) {name : PyStr}
    (hname : name ≠ py "allowlist") :
    Dict.get? (dictField (withAllowlist agents key entries) key) name =
      Dict.get? (dictField agents key) name := by
  unfold withAllowlist
  split
  · rfl
  · rw [dictField_set, if_pos rfl, Dict.get?_set, if_neg hname]

omit [Runtime] in
/-- A policy whose list has entries is stored as a policy. -/
theorem get?_of_allowlist {agents : Dict} {key : PyStr} (h : allowlistOf (dictField agents key) ≠ []) :
    ∃ (policy : Dict) (old : List Json), agents.get? key = some (.dict policy) ∧
      dictField agents key = policy ∧ policy.get? (py "allowlist") = some (.list old) ∧
      allowlistOf (dictField agents key) = old := by
  have hpolicy : ∃ policy, agents.get? key = some (.dict policy) := by
    by_contra hno
    apply h
    have hnil : dictField agents key = [] := by
      unfold dictField
      split
      · rename_i entries hget
        exact absurd ⟨entries, hget⟩ hno
      · rfl
    rw [hnil]
    rfl
  have ⟨policy, hget⟩ := hpolicy
  have hfield : dictField agents key = policy := by
    unfold dictField
    rw [hget]
  refine ⟨policy, allowlistOf policy, hget, hfield, ?_, by rw [hfield]⟩
  rw [hfield] at h
  unfold allowlistOf at h ⊢
  split
  · assumption
  · rename_i hno
    split at h
    · rename_i old hold
      exact absurd hold (hno old)
    · exact absurd rfl h

def ValidAgents (agents : Dict) : Prop := ∀ agent ∈ agents, validateAgent agent = none

/-- The entry passes its check, whatever scope it is named by. -/
def ValidEntry (entry : Json) : Prop := ∀ scope, validateAllowlistEntry scope entry = none

theorem validateEntries_iff {scope : PyStr} {entries : List Json} :
    validateEntries scope validateAllowlistEntry (some (.list entries)) = none ↔
      ∀ entry ∈ entries, ValidEntry entry := by
  unfold validateEntries
  rw [firstError_iff]
  constructor
  · intro h entry hentry other
    have ⟨i, hi, heq⟩ := List.mem_iff_getElem.mp hentry
    have hmem := h _ (List.mem_mapIdx.mpr ⟨i, hi, rfl⟩)
    rw [heq] at hmem
    exact allowlistEntry_scope other hmem
  · intro h check hcheck
    have ⟨i, hi, heq⟩ := List.mem_mapIdx.mp hcheck
    rw [← heq]
    exact h _ (List.getElem_mem hi) _

theorem validatePolicy_set {scope : PyStr} {policy : Dict} {old entries : List Json}
    (h : validatePolicy scope policy true = none)
    (hold : policy.get? (py "allowlist") = some (.list old))
    (hentries : ∀ entry ∈ entries, ValidEntry entry) :
    validatePolicy scope (policy.set (py "allowlist") (.list entries)) true = none := by
  have hkeys : (policy.set (py "allowlist") (.list entries)).keys = policy.keys := by
    rw [Dict.keys_set, if_pos]
    rw [← Dict.has_iff_mem_keys, Dict.has, hold]
    rfl
  have hother : ∀ name, name ≠ py "allowlist" →
      (policy.set (py "allowlist") (.list entries)).get? name = policy.get? name := by
    intro name hname
    rw [Dict.get?_set, if_neg hname]
  unfold validatePolicy validateChoice at h ⊢
  simp only [firstError_cons, validateFields_eq_none, unknownKeys, hkeys,
    hother (py "security") (by decide), hother (py "ask") (by decide),
    hother (py "askFallback") (by decide), hother (py "autoAllowSkills") (by decide),
    hother (py "mcpTools") (by decide)] at h ⊢
  refine ⟨h.1, h.2.1, h.2.2.1, h.2.2.2.1, h.2.2.2.2.1, ?_, h.2.2.2.2.2.2⟩
  rw [Dict.get?_set, if_pos rfl]
  exact validateEntries_iff.mpr hentries

theorem validEntry_of_agents {agents : Dict} (hagents : ValidAgents agents) (key : PyStr) :
    ∀ entry ∈ allowlistOf (dictField agents key), ValidEntry entry := by
  intro entry hentry
  have ⟨policy, old, hget, _, hold, heq⟩ := get?_of_allowlist (List.ne_nil_of_mem hentry)
  have hpolicy : validatePolicy (py "file.agents." ++ key) policy true = none :=
    hagents _ (mem_of_lookup hget)
  unfold validatePolicy at hpolicy
  simp only [firstError_cons] at hpolicy
  have hlist := hpolicy.2.2.2.2.2.1
  rw [hold] at hlist
  rw [heq] at hentry
  exact validateEntries_iff.mp hlist entry hentry

theorem validAgents_withAllowlist {agents : Dict} (hagents : ValidAgents agents) (key : PyStr)
    {entries : List Json} (hlength : entries.length = (allowlistOf (dictField agents key)).length)
    (hentries : ∀ entry ∈ entries, ValidEntry entry) :
    ValidAgents (withAllowlist agents key entries) := by
  unfold withAllowlist
  split
  · exact hagents
  · rename_i hne
    intro agent hagent
    rcases Dict.mem_update (e := [(key, _)]) hagent with hmem | hmem
    · exact hagents agent hmem
    · rw [List.mem_singleton.mp hmem]
      have hfull : allowlistOf (dictField agents key) ≠ [] := by
        intro hnil
        rw [hnil] at hlength
        exact hne (List.eq_nil_of_length_eq_zero hlength)
      have ⟨policy, old, hget, hfield, hold, _⟩ := get?_of_allowlist hfull
      rw [hfield]
      exact validatePolicy_set (hagents _ (mem_of_lookup hget)) hold hentries

theorem validAgents_of_document {document : Dict} (hvalid : validateDocument (.dict document) = none) :
    ValidAgents (dictField document (py "agents")) := by
  unfold validateDocument at hvalid
  simp only [firstError_cons] at hvalid
  have hagents := hvalid.2.2.2.2.1
  unfold dictField
  split
  · rename_i agents hget
    rw [hget] at hagents
    intro agent hagent
    exact firstError_iff.mp hagents _ (List.mem_map_of_mem hagent)
  · exact fun _ h => absurd h List.not_mem_nil

theorem validateDocument_set {document agents : Dict}
    (hvalid : validateDocument (.dict document) = none) (hagents : ValidAgents agents) :
    validateDocument (.dict (document.set (py "agents") (.dict agents))) = none := by
  have hother : ∀ name, name ≠ py "agents" →
      (document.set (py "agents") (.dict agents)).get? name = document.get? name := by
    intro name hname
    rw [Dict.get?_set, if_neg hname]
  unfold validateDocument Dict.getD at hvalid ⊢
  simp only [firstError_cons, refusal_eq_none, not_not, unknownKeys_eq_nil,
    hother (py "version") (by decide), hother (py "socket") (by decide),
    hother (py "defaults") (by decide)] at hvalid ⊢
  refine ⟨?_, hvalid.2.1, hvalid.2.2.1, hvalid.2.2.2.1, ?_, hvalid.2.2.2.2.2⟩
  · intro key hkey
    rw [Dict.keys_set] at hkey
    split at hkey
    · exact hvalid.1 key hkey
    · rcases List.mem_append.mp hkey with hkey | hkey
      · exact hvalid.1 key hkey
      · rw [List.mem_singleton.mp hkey]
        decide
  · rw [Dict.get?_set, if_pos rfl]
    apply firstError_iff.mpr
    intro check hcheck
    have ⟨agent, hagent, heq⟩ := List.mem_map.mp hcheck
    rw [← heq]
    exact hagents agent hagent

/-- The document with both lists replaced. -/
def withLists (document : Dict) (agentId : Option PyStr) (wildcard exact_ : List Json) : Dict :=
  let agents := withAllowlist (dictField document (py "agents")) (py "*") wildcard
  document.set (py "agents") <| .dict <|
    match agentId with
    | some agentId => if agentId = [] then agents else withAllowlist agents agentId exact_
    | none => agents

/-- Any lists of the same lengths and with the same entries are a rearrangement; the wildcard agent has
one list, which is read twice. -/
theorem rearranged_withLists {document : Dict} (agentId : Option PyStr) (wildcard exact_ : List Json)
    (hvalid : validateDocument (.dict document) = none)
    (hwildcard : wildcard.length = (allowlistOf (wildcardPolicy document)).length)
    (hexact : exact_.length = (allowlistOf (exactPolicy document agentId)).length)
    (hperm : (wildcard ++ exact_).Perm (policyEntries document agentId))
    (hstar : agentId = some (py "*") → exact_ = wildcard) :
    Rearranged document (withLists document agentId wildcard exact_) agentId ∧
      policyEntries (withLists document agentId wildcard exact_) agentId = wildcard ++ exact_ := by
  have hagents := validAgents_of_document hvalid
  have hentries : ∀ entry ∈ wildcard ++ exact_, ValidEntry entry := by
    intro entry hentry
    rcases List.mem_append.mp (hperm.mem_iff.mp hentry) with hmem | hmem
    · exact validEntry_of_agents hagents _ entry hmem
    · match agentId, hmem with
      | some agentId, hmem =>
        change entry ∈ allowlistOf (if agentId = [] then [] else dictField _ agentId) at hmem
        split at hmem
        · cases hmem
        · exact validEntry_of_agents hagents _ entry hmem
  have hfirst := validAgents_withAllowlist hagents (py "*") hwildcard
    fun entry h => hentries entry (List.mem_append_left _ h)
  have hlist : allowlistOf (dictField (withAllowlist (dictField document (py "agents")) (py "*")
      wildcard) (py "*")) = wildcard := allowlistOf_withAllowlist hwildcard
  -- what the rewritten agents have to show, whichever agent is asked for
  have hof : ∀ agents, withLists document agentId wildcard exact_ =
        document.set (py "agents") (.dict agents) → ValidAgents agents →
      allowlistOf (dictField agents (py "*")) = wildcard →
      (∀ name, name ≠ py "allowlist" → Dict.get? (dictField agents (py "*")) name =
        Dict.get? (wildcardPolicy document) name) →
      allowlistOf (exactPolicy (document.set (py "agents") (.dict agents)) agentId) = exact_ →
      (∀ name, name ≠ py "allowlist" →
        Dict.get? (exactPolicy (document.set (py "agents") (.dict agents)) agentId) name =
          Dict.get? (exactPolicy document agentId) name) →
      Rearranged document (withLists document agentId wildcard exact_) agentId ∧
        policyEntries (withLists document agentId wildcard exact_) agentId = wildcard ++ exact_ := by
    intro agents heq hagents' hlist' hfields hown hownFields
    have hagentsOf : wildcardPolicy (document.set (py "agents") (.dict agents)) =
        dictField agents (py "*") := by
      unfold wildcardPolicy
      rw [dictField_set, if_pos rfl]
    have hentries' : policyEntries (document.set (py "agents") (.dict agents)) agentId =
        wildcard ++ exact_ := by
      unfold policyEntries
      rw [hagentsOf, hlist', hown]
    rw [heq]
    refine ⟨⟨validateDocument_set hvalid hagents', ?_, ?_, hownFields, ?_⟩, hentries'⟩
    · rw [dictField_set, if_neg (by decide)]
    · rw [hagentsOf]
      exact hfields
    · rw [hentries']
      exact hperm
  match agentId, hexact, hstar, hof with
  | none, hexact, _, hof =>
    have hnil : exact_ = [] := List.eq_nil_of_length_eq_zero hexact
    exact hof _ rfl hfirst hlist (fun name => get?_withAllowlist _ _ _) hnil.symm fun _ _ => rfl
  | some id, hexact, hstar, hof =>
    by_cases hid : id = []
    · have hnone : ∀ d, exactPolicy d (some id) = [] := fun d => if_pos hid
      rw [hnone] at hexact
      have hnil : exact_ = [] := List.eq_nil_of_length_eq_zero hexact
      refine hof _ (by unfold withLists; simp only [if_pos hid]) hfirst hlist
        (fun name => get?_withAllowlist _ _ _) ?_ fun name _ => ?_
      · rw [hnone, hnil]
        rfl
      · rw [hnone, hnone]
    · have howner : ∀ d, exactPolicy d (some id) = dictField (dictField d (py "agents")) id :=
        fun d => if_neg hid
      have hset : ∀ agents, dictField (document.set (py "agents") (.dict agents)) (py "agents") =
          agents := by
        intro agents
        rw [dictField_set, if_pos rfl]
      have hsecond : exact_.length = (allowlistOf (dictField (withAllowlist
          (dictField document (py "agents")) (py "*") wildcard) id)).length := by
        by_cases hsame : id = py "*"
        · rw [hsame, hlist, hstar (congrArg some hsame)]
        · rw [dictField_withAllowlist_ne _ hsame, ← howner]
          exact hexact
      have hown := allowlistOf_withAllowlist hsecond
      refine hof _ (by unfold withLists; simp only [if_neg hid])
        (validAgents_withAllowlist hfirst _ hsecond fun entry h =>
          hentries entry (List.mem_append_right _ h)) ?_ ?_ ?_ ?_
      · by_cases hsame : id = py "*"
        · rw [hsame] at hown ⊢
          rw [hown, hstar (congrArg some hsame)]
        · rw [dictField_withAllowlist_ne _ (Ne.symm hsame), hlist]
      · intro name hname
        by_cases hsame : id = py "*"
        · rw [hsame, get?_withAllowlist _ _ _ hname]
          exact get?_withAllowlist _ _ _ hname
        · rw [dictField_withAllowlist_ne _ (Ne.symm hsame)]
          exact get?_withAllowlist _ _ _ hname
      · rw [howner, hset, hown]
      · intro name hname
        rw [howner, howner, hset, get?_withAllowlist _ _ _ hname]
        by_cases hsame : id = py "*"
        · rw [hsame]
          exact get?_withAllowlist _ _ _ hname
        · rw [dictField_withAllowlist_ne _ hsame]

/-- The entries of one rule before all others. -/
def front (t : RuleTriple) (entries : List Json) : List Json :=
  entries.filter (fun entry => ruleTriple entry = some t) ++
    entries.filter fun entry => !decide (ruleTriple entry = some t)

omit [Runtime] in
theorem front_perm (t : RuleTriple) (entries : List Json) : (front t entries).Perm entries :=
  List.filter_append_perm _ entries

omit [Runtime] in
theorem triples_front {t : RuleTriple} {entries : List Json} (ht : t ∈ triples entries) :
    ∃ rest, triples (front t entries) = t :: rest := by
  have ⟨entry, hentry, hrule⟩ := List.mem_filterMap.mp ht
  have hmem : entry ∈ entries.filter fun entry => ruleTriple entry = some t :=
    List.mem_filter.mpr ⟨hentry, decide_eq_true hrule⟩
  unfold front triples
  rw [List.filterMap_append]
  cases hfilter : entries.filter fun entry => ruleTriple entry = some t with
  | nil =>
    rw [hfilter] at hmem
    cases hmem
  | cons first others =>
    have hfirst : first ∈ entries.filter fun entry => ruleTriple entry = some t := by
      rw [hfilter]
      exact .head _
    rw [List.filterMap_cons_some (of_decide_eq_true (List.mem_filter.mp hfirst).2)]
    exact ⟨_, rfl⟩

/-- Any rule of the two lists comes first in some rearrangement. -/
theorem exists_front {document : Dict} {agentId : Option PyStr}
    (hvalid : validateDocument (.dict document) = none) {t : RuleTriple}
    (ht : t ∈ triples (policyEntries document agentId)) :
    ∃ other, Rearranged document other agentId ∧
      ∃ rest, triples (policyEntries other agentId) = t :: rest := by
  by_cases hstar : agentId = some (py "*")
  · subst hstar
    have hsame : exactPolicy document (some (py "*")) = wildcardPolicy document := rfl
    have ht' : t ∈ triples (allowlistOf (wildcardPolicy document)) := by
      unfold policyEntries triples at ht
      rw [hsame, List.filterMap_append] at ht
      exact (List.mem_append.mp ht).elim id id
    have hperm := front_perm t (allowlistOf (wildcardPolicy document))
    have ⟨rest, hrest⟩ := triples_front ht'
    have ⟨hrearranged, hentries⟩ := rearranged_withLists (some (py "*")) _ _ hvalid
      hperm.length_eq hperm.length_eq (hperm.append hperm) fun _ => rfl
    refine ⟨_, hrearranged, rest ++ triples (front t (allowlistOf (wildcardPolicy document))), ?_⟩
    rw [hentries]
    unfold triples at hrest ⊢
    rw [List.filterMap_append, hrest]
    rfl
  · have hperm := front_perm t (policyEntries document agentId)
    have ⟨rest, hrest⟩ := triples_front ht
    have hlength : (front t (policyEntries document agentId)).length =
        (allowlistOf (wildcardPolicy document)).length +
          (allowlistOf (exactPolicy document agentId)).length := by
      rw [hperm.length_eq]
      exact List.length_append
    -- the two lists are the two parts of the new order
    have hsplit := List.take_append_drop (allowlistOf (wildcardPolicy document)).length
      (front t (policyEntries document agentId))
    have ⟨hrearranged, hentries⟩ := rearranged_withLists agentId
      ((front t (policyEntries document agentId)).take (allowlistOf (wildcardPolicy document)).length)
      ((front t (policyEntries document agentId)).drop (allowlistOf (wildcardPolicy document)).length)
      hvalid (by rw [List.length_take]; omega) (by rw [List.length_drop]; omega)
      (hsplit.symm ▸ hperm) fun h => absurd h hstar
    refine ⟨_, hrearranged, rest, ?_⟩
    rw [hentries, hsplit]
    exact hrest

/-- Two tied rules can be shown in either order. -/
theorem tied_shows {document : Dict} {agentId : Option PyStr}
    (hvalid : validateDocument (.dict document) = none) (htied : Tied document agentId) :
    ∃ one other, Rearranged document one agentId ∧ Rearranged document other agentId ∧
      resolvePolicy one agentId ≠ resolvePolicy other agentId := by
  have ⟨hencodable, t, ht, habsent, hempty⟩ := htied
  -- put the one tied rule to the front, then the other
  have ⟨one, hone, rest, hrest⟩ := exists_front hvalid ht
  have ⟨other, hother, rest', hrest'⟩ := exists_front hvalid hempty
  have hmem : ∀ {d : Dict}, Rearranged document d agentId → ∀ u,
      u ∈ triples (policyEntries d agentId) ↔ u ∈ triples (policyEntries document agentId) :=
    fun h u => (h.entries.filterMap ruleTriple).mem_iff
  have hne : t ≠ { t with argPattern := some [] } := by
    intro heq
    rw [heq] at habsent
    cases habsent
  -- the sort key cannot tell the two apart, so the sort keeps the order of the file
  have hkey : t.key = RuleTriple.key { t with argPattern := some [] } := by
    apply RuleTriple.key_eq_iff.mpr
    rw [habsent]
    exact ⟨rfl, rfl, rfl⟩
  have hsecond : { t with argPattern := some [] } ∈ rest := by
    have hin := (hmem hone _).mpr hempty
    rw [hrest] at hin
    exact (List.mem_cons.mp hin).resolve_left hne.symm
  have hsecond' : t ∈ rest' := by
    have hin := (hmem hother _).mpr ht
    rw [hrest'] at hin
    exact (List.mem_cons.mp hin).resolve_left hne
  refine ⟨one, other, hone, hother, fun heq => canonical_ne hne hkey hsecond hsecond' ?_⟩
  rw [resolvePolicy_eq, resolvePolicy_eq, if_pos fun u hu => hencodable u ((hmem hone u).mp hu),
    if_pos fun u hu => hencodable u ((hmem hother u).mp hu), hrest, hrest'] at heq
  have hlists := congrArg (fun p : Except Exc Dict => p.map fun d => d.get? (py "allowlistRules")) heq
  have hmaps : (canonical RuleTriple.key (t :: rest)).map (fun t => Json.dict t.rule) =
      (canonical RuleTriple.key ({ t with argPattern := some [] } :: rest')).map
        fun t => Json.dict t.rule := Json.list.inj (Option.some.inj (Except.ok.inj hlists))
  have hinjective : Function.Injective fun t : RuleTriple => Json.dict t.rule :=
    fun t u h => rule_injective (Json.dict.inj h)
  exact List.map_injective_iff.mpr hinjective hmaps

/-- The snapshot of a valid document is the same for every order of the entries of the two lists exactly
if no two of their rules are tied.  Its rules are the distinct ones of the two lists, each once. -/
theorem policy_order_iff {document : Dict} (hvalid : validateDocument (.dict document) = none)
    (agentId : Option PyStr) :
    ((∀ other, Rearranged document other agentId →
        resolvePolicy other agentId = resolvePolicy document agentId) ↔ ¬ Tied document agentId) ∧
    ∀ policy, resolvePolicy document agentId = .ok policy → ∃ rules : List RuleTriple,
      policy.get? (py "allowlistRules") = some (.list (rules.map fun t => .dict t.rule)) ∧
      rules.Nodup ∧ ∀ t, t ∈ rules ↔
        ∃ entry ∈ policyEntries document agentId, ruleTriple entry = some t := by
  constructor
  · constructor
    · intro hsame htied
      have ⟨one, other, hone, hother, hne⟩ := tied_shows hvalid htied
      exact hne ((hsame one hone).trans (hsame other hother).symm)
    · exact fun htied other h => resolvePolicy_rearranged h htied
  · intro policy hpolicy
    rw [resolvePolicy_eq] at hpolicy
    split at hpolicy
    · refine ⟨canonical RuleTriple.key (triples (policyEntries document agentId)), ?_,
        nodup_canonical, ?_⟩
      · rw [← Except.ok.inj hpolicy]
        rfl
      · intro t
        rw [mem_canonical]
        exact List.mem_filterMap
    · cases hpolicy

end

/-- A document with a wildcard list and a list of the agent `main`. -/
def documentOf (wildcard own : List Json) : Dict :=
  [(py "version", .int 1),
    (py "agents", .dict [(py "*", .dict [(py "allowlist", .list wildcard)]),
      (py "main", .dict [(py "allowlist", .list own)])])]

/-- A command, one with an argument, and one that was always allowed. -/
def threeEntries : List Json :=
  [.dict [(py "pattern", .str (py "a"))],
    .dict [(py "pattern", .str (py "b")), (py "argPattern", .str (py "x"))],
    .dict [(py "pattern", .str (py "c")), (py "source", .str (py "allow-always"))]]

/-- All three for everyone, the first two again for the agent. -/
def listedTwice : Dict := documentOf threeEntries (threeEntries.take 2)

/-- The same in other lists and in another order. -/
def listedElsewhere : Dict := documentOf (threeEntries.take 2).reverse threeEntries.reverse

theorem policy_order_sample :
    let _ := Runtime.ofTable []
    Rearranged listedTwice listedElsewhere (some (py "main")) ∧
      policyEntries listedElsewhere (some (py "main")) ≠ policyEntries listedTwice (some (py "main")) ∧
      resolvePolicy listedElsewhere (some (py "main")) = resolvePolicy listedTwice (some (py "main")) := by
  intro _
  have hvalid : validateDocument (.dict listedTwice) = none := by decide +kernel
  have hentries : ∀ wildcard own,
      policyEntries (documentOf wildcard own) (some (py "main")) = wildcard ++ own := fun _ _ => rfl
  have hrearranged : Rearranged listedTwice listedElsewhere (some (py "main")) := by
    have hother : ∀ (entries others : List Json) (name : PyStr), name ≠ py "allowlist" →
        Dict.get? [(py "allowlist", .list entries)] name =
          Dict.get? [(py "allowlist", .list others)] name := by
      intro entries others name hname
      rw [Dict.get?_cons, Dict.get?_cons, if_neg hname, if_neg hname]
    refine ⟨by decide +kernel, rfl, hother _ _, hother _ _, ?_⟩
    rw [listedElsewhere, listedTwice, hentries, hentries, ← List.reverse_append]
    exact List.reverse_perm _
  refine ⟨hrearranged, by decide +kernel, (policy_order_iff hvalid _).1.mpr ?_ _ hrearranged⟩
  rintro ⟨-, t, ht, habsent, hempty⟩
  have hnone : ∀ u ∈ triples (policyEntries listedTwice (some (py "main"))), u.argPattern ≠ some [] := by
    decide +kernel
  exact hnone _ hempty rfl

/-- One command with no arguments given and with empty ones. -/
def tiedEntries : List Json :=
  [.dict [(py "pattern", .str (py "a"))],
    .dict [(py "pattern", .str (py "a")), (py "argPattern", .str [])]]

def documentWith (entries : List Json) : Dict :=
  [(py "version", .int 1),
    (py "agents", .dict [(py "*", .dict [(py "allowlist", .list entries)])])]

/-- Two entries change places, and with them two rules of the snapshot. -/
theorem policy_order_shows :
    let _ := Runtime.ofTable []
    Rearranged (documentWith tiedEntries) (documentWith tiedEntries.reverse) none ∧
      validateDocument (.dict (documentWith tiedEntries)) = none ∧
      resolvePolicy (documentWith tiedEntries.reverse) none ≠
        resolvePolicy (documentWith tiedEntries) none := by
  intro _
  have hentries : ∀ entries, policyEntries (documentWith entries) none = entries :=
    fun entries => List.append_nil entries
  refine ⟨⟨by decide +kernel, rfl, ?_, fun _ _ => rfl, ?_⟩, by decide +kernel, by decide +kernel⟩
  · intro name hname
    show Dict.get? [(py "allowlist", _)] name = Dict.get? [(py "allowlist", _)] name
    rw [Dict.get?_cons, Dict.get?_cons, if_neg hname, if_neg hname]
  · rw [hentries, hentries]
    exact List.reverse_perm tiedEntries

end HassNode.ExecApprovals
