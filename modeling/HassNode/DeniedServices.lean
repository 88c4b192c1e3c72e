import HassNode.Commands.HaServices
import HassNode.Library.Glob

/-!
# The index of denied services

`_interim_service_denial` looks a few candidate keys up in a table of globs.  For canonical names it
finds one exactly when some glob of the table matches the joined name.
-/

namespace Py

open Glob

/-! ## `fnmatchcase` -/

/-- What a token of `fnmatch` stands for. -/
def GlobToken.meaning : GlobToken → Token CodePoint
  | .star => .star
  | token => .one fun c => token.accepts c = true

theorem meaning_char (c : CodePoint) : (GlobToken.char c).meaning = lit c := by
  simp [GlobToken.meaning, GlobToken.accepts, lit]

theorem globMatch_iff (tokens : List GlobToken) (text : PyStr) :
    globMatch tokens text = true ↔ Matches (tokens.map GlobToken.meaning) text := by
  induction tokens generalizing text with
  | nil => simp [globMatch, Matches]
  | cons token tokens ih =>
    cases token with
    | star =>
      simp only [globMatch, List.any_eq_true, List.mem_tails, ih, List.map_cons,
        GlobToken.meaning, Matches]
      constructor
      · rintro ⟨t, ⟨u, hu⟩, ht⟩
        exact ⟨u, t, hu.symm, ht⟩
      · rintro ⟨u, t, rfl, ht⟩
        exact ⟨t, List.suffix_append u t, ht⟩
    | anyChar | oneOf negated members | char d =>
      cases text with
      | nil => simp [globMatch, GlobToken.meaning, Matches]
      | cons c text => simp [globMatch, GlobToken.meaning, Matches, ih]

/-- No character of the text is a wildcard or opens a bracket. -/
def isLiteral (text : PyStr) : Bool := text.all fun c => c ≠ 42 && c ≠ 63 && c ≠ 91

theorem globTokens_literal {s : PyStr} (h : isLiteral s = true) (n : Nat) (t : PyStr) :
    globTokens (s.length + n) (s ++ t) = s.map .char ++ globTokens n t := by
  induction s with
  | nil => rw [List.length_nil, Nat.zero_add, List.nil_append, List.map_nil, List.nil_append]
  | cons c s ih =>
    rw [isLiteral, List.all_cons, Bool.and_eq_true] at h
    have hc : (c ≠ 42 ∧ c ≠ 63) ∧ c ≠ 91 := by simpa using h.1
    rw [List.length_cons, Nat.succ_add, List.cons_append, globTokens, if_neg hc.1.1, if_neg hc.1.2,
      if_neg hc.2, ih h.2, List.map_cons, List.cons_append]

theorem map_meaning_chars (s : PyStr) : (s.map GlobToken.char).map GlobToken.meaning = s.map lit := by
  rw [List.map_map]
  exact List.map_congr_left fun c _ => meaning_char c

theorem fnmatchcase_literal {pattern : PyStr} (h : isLiteral pattern = true) (name : PyStr) :
    fnmatchcase name pattern = true ↔ name = pattern := by
  have htokens := globTokens_literal h 0 []
  rw [Nat.add_zero, List.append_nil, globTokens, List.append_nil] at htokens
  rw [fnmatchcase, htokens, globMatch_iff, map_meaning_chars, matches_lits]

/-- A literal text before a final star. -/
theorem fnmatchcase_stem {stem : PyStr} (h : isLiteral stem = true) (name : PyStr) :
    fnmatchcase name (stem ++ py "*") = true ↔ stem <+: name := by
  have htokens : globTokens (stem ++ py "*").length (stem ++ py "*") = stem.map .char ++ [.star] := by
    rw [List.length_append, globTokens_literal h]
    rfl
  rw [fnmatchcase, htokens, globMatch_iff, List.map_append, map_meaning_chars]
  exact matches_stem stem name

theorem globTokens_star (text : PyStr) :
    globTokens (py "*" ++ text).length (py "*" ++ text) = .star :: globTokens text.length text := rfl

/-- A literal text behind a first star. -/
theorem fnmatchcase_tail (tail : PyStr) (h : isLiteral tail = true) (name : PyStr) :
    fnmatchcase name (py "*" ++ tail) = true ↔ tail <:+ name := by
  have htokens := globTokens_literal h 0 []
  rw [Nat.add_zero, List.append_nil, globTokens, List.append_nil] at htokens
  rw [fnmatchcase, globTokens_star, htokens, globMatch_iff, List.map_cons, map_meaning_chars]
  exact matches_tail tail name

/-- A literal text between two stars. -/
theorem fnmatchcase_within (middle : PyStr) (h : isLiteral middle = true) (name : PyStr) :
    fnmatchcase name (py "*" ++ (middle ++ py "*")) = true ↔ middle <:+: name := by
  have htokens := globTokens_literal h 1 (py "*")
  rw [fnmatchcase, globTokens_star, List.length_append]
  change globMatch (.star :: globTokens (middle.length + 1) (middle ++ py "*")) name = true ↔ _
  rw [htokens, globMatch_iff, List.map_cons, List.map_append, map_meaning_chars]
  exact matches_within middle name

end Py

namespace HassNode.HaServices

open Py Commands Authz Glob

/-! ## The patterns of the table -/

/-- One service, the services of a domain, or one of the two reload patterns. -/
inductive TablePattern : PyStr → Prop
  | service {name : PyStr} (hname : isLiteral name = true) : TablePattern name
  | domain {name : PyStr} (hname : isLiteral (name ++ py ".") = true) :
      TablePattern (name ++ py "." ++ py "*")
  | reload : TablePattern (py "*.reload")
  | reloadAny : TablePattern (py "*.reload_*")

def domainPatterns : List PyStr :=
  [py "update", py "shell_command", py "python_script", py "command_line"]

theorem patterns_split : interimDeniedServicePatterns.all (fun entry =>
    isLiteral entry.1 || domainPatterns.any (fun name => entry.1 = name ++ py "." ++ py "*") ||
      entry.1 = py "*.reload" || entry.1 = py "*.reload_*") = true := by
  decide +kernel

theorem domainPatterns_literal :
    domainPatterns.all (fun name => isLiteral (name ++ py ".")) = true := by
  decide

theorem tablePattern_of_mem {pattern : PyStr}
    (h : pattern ∈ interimDeniedServicePatterns.map Prod.fst) : TablePattern pattern := by
  obtain ⟨entry, hentry, rfl⟩ := List.mem_map.mp h
  have hsplit := List.all_eq_true.mp patterns_split entry hentry
  simp only [Bool.or_eq_true, decide_eq_true_eq, List.any_eq_true] at hsplit
  rcases hsplit with ((hname | ⟨name, hname, heq⟩) | heq) | heq
  · exact .service hname
  · rw [heq]
    exact .domain (List.all_eq_true.mp domainPatterns_literal name hname)
  · rw [heq]
    exact .reload
  · rw [heq]
    exact .reloadAny

/-! ## Canonical names -/

theorem slugChar_literal {c : CodePoint} (h : isSlugChar c = true) : c ≠ 42 ∧ c ≠ 63 ∧ c ≠ 91 := by
  refine ⟨?_, ?_, ?_⟩ <;>
  · rintro rfl
    exact absurd h (by decide)

section
variable {domain service : PyStr} (hdomain : isServiceName domain = true)
  (hservice : isServiceName service = true)
include hdomain hservice

theorem not_dot_mem : 46 ∉ domain ∧ 46 ∉ service := by
  have hne : ∀ {name : PyStr}, isServiceName name = true → 46 ∉ name := fun hname hdot =>
    (slugChar_ne (List.all_eq_true.mp (slugs_of_isServiceName hname) _ hdot)).1 rfl
  exact ⟨hne hdomain, hne hservice⟩

theorem isLiteral_joined : isLiteral (domain ++ py "." ++ service) = true := by
  have hslugs : ∀ {name : PyStr}, isServiceName name = true → isLiteral name = true := by
    intro name hname
    apply List.all_eq_true.mpr
    intro c hc
    have hliteral := slugChar_literal (List.all_eq_true.mp (slugs_of_isServiceName hname) c hc)
    simpa [and_assoc] using hliteral
  have hdot : isLiteral (py ".") = true := by decide
  simp only [isLiteral, List.all_append, Bool.and_eq_true] at *
  exact ⟨⟨hslugs hdomain, hdot⟩, hslugs hservice⟩

/-- A pattern of the table that matches the joined name is one of the candidates. -/
theorem candidate_of_match {pattern : PyStr} (hpattern : TablePattern pattern)
    (hmatch : fnmatchcase (domain ++ py "." ++ service) pattern = true) :
    pattern ∈ denialCandidates domain service := by
  obtain ⟨hfront, hbehind⟩ := not_dot_mem hdomain hservice
  have hjoined : domain ++ py "." ++ service = domain ++ 46 :: service := by
    rw [List.append_assoc]
    rfl
  unfold denialCandidates
  rw [List.mem_append]
  cases hpattern with
  | service hname =>
    have hname := (fnmatchcase_literal hname _).mp hmatch
    exact .inl (by rw [hname]; exact List.mem_cons_self)
  | @domain name hname =>
    rw [fnmatchcase_stem hname, hjoined] at hmatch
    have hdomain : name = domain := (stem_joined_iff hfront hbehind name).mp hmatch
    exact .inl (by rw [hdomain, List.append_assoc]; simp [py])
  | reload =>
    have hsuffix := (fnmatchcase_tail (py ".reload") (by decide) _).mp hmatch
    rw [hjoined] at hsuffix
    have hreload : py "reload" = service := (tail_joined_iff hfront hbehind (py "reload")).mp hsuffix
    exact .inr (by rw [if_pos hreload.symm]; exact List.mem_singleton_self _)
  | reloadAny =>
    have hwithin := (fnmatchcase_within (py ".reload_") (by decide) _).mp hmatch
    rw [hjoined] at hwithin
    have hreload : py "reload_" <+: service :=
      (within_joined_iff hfront hbehind (py "reload_")).mp hwithin
    have hne : service ≠ py "reload" := by
      rintro rfl
      exact absurd hreload (by decide)
    have hstarts : startsWith service (py "reload_") = true := List.isPrefixOf_iff_prefix.mpr hreload
    exact .inr (by rw [if_neg hne, if_pos hstarts]; exact List.mem_singleton_self _)

/-- Every candidate matches the joined name. -/
theorem match_of_candidate {pattern : PyStr} (hpattern : pattern ∈ denialCandidates domain service) :
    fnmatchcase (domain ++ py "." ++ service) pattern = true := by
  have hliteral := isLiteral_joined hdomain hservice
  have hstem : isLiteral (domain ++ py ".") = true := by
    rw [isLiteral, List.all_append, Bool.and_eq_true] at hliteral
    exact hliteral.1
  rw [denialCandidates, List.mem_append, List.mem_cons, List.mem_singleton] at hpattern
  rcases hpattern with (rfl | rfl) | hreload
  · exact (fnmatchcase_literal hliteral _).mpr rfl
  · rw [show py ".*" = py "." ++ py "*" from rfl, ← List.append_assoc]
    exact (fnmatchcase_stem hstem _).mpr (List.prefix_append _ service)
  · by_cases hservice : service = py "reload"
    · rw [if_pos hservice, List.mem_singleton] at hreload
      rw [hreload, hservice, List.append_assoc]
      exact (fnmatchcase_tail (py ".reload") (by decide) _).mpr (List.suffix_append domain _)
    · rw [if_neg hservice] at hreload
      by_cases hstarts : startsWith service (py "reload_") = true
      · rw [if_pos hstarts, List.mem_singleton] at hreload
        obtain ⟨rest, hrest⟩ := List.isPrefixOf_iff_prefix.mp hstarts
        rw [hreload]
        refine (fnmatchcase_within (py ".reload_") (by decide) _).mpr ⟨domain, rest, ?_⟩
        rw [← hrest, List.append_assoc, List.append_assoc]
        rfl
      · rw [if_neg hstarts] at hreload
        cases hreload

omit hdomain hservice in
theorem denial_isSome_iff : (interimServiceDenial domain service).isSome = true ↔
    ∃ pattern ∈ denialCandidates domain service,
      pattern ∈ interimDeniedServicePatterns.map Prod.fst := by
  rw [interimServiceDenial, List.isSome_findSome?, List.any_eq_true]
  simp only [List.lookup_isSome_iff, beq_iff_eq, List.mem_map, @eq_comm _ _ (Prod.fst _)]

/-- A canonical service is denied exactly when a glob of the table matches its name. -/
theorem denial_iff_glob : (interimServiceDenial domain service).isSome = true ↔
    ∃ pattern ∈ interimDeniedServicePatterns.map Prod.fst,
      fnmatchcase (domain ++ py "." ++ service) pattern = true := by
  rw [denial_isSome_iff]
  constructor
  · rintro ⟨pattern, hcandidate, hmem⟩
    exact ⟨pattern, hmem, match_of_candidate hdomain hservice hcandidate⟩
  · rintro ⟨pattern, hmem, hmatch⟩
    exact ⟨pattern, candidate_of_match hdomain hservice (tablePattern_of_mem hmem) hmatch, hmem⟩

end

theorem denial_iff_glob_reload_all : (interimServiceDenial (py "script") (py "reload_all")).isSome = true ↔
    ∃ pattern ∈ interimDeniedServicePatterns.map Prod.fst,
      fnmatchcase (py "script" ++ py "." ++ py "reload_all") pattern = true :=
  denial_iff_glob (by decide) (by decide)

end HassNode.HaServices
