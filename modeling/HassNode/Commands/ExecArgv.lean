import HassNode.HaClient

/-!
# Commands to be approved

The part of `commands/exec_approvals.py` that validates an argument vector and renders it as the
text that an approver sees.
-/

namespace HassNode.ExecApprovals

open Py HaClient

def maxArgv : Nat := 256

def maxArgLen : Nat := 8192

/-- `_JS_WHITESPACE`. -/
def isJsSpace (c : CodePoint) : Bool :=
  (9 ≤ c.val && c.val ≤ 13) || c.val = 0x20 || c.val = 0xA0 || c.val = 0x1680 || c.val = 0x2028 ||
    c.val = 0x2029 || c.val = 0x202F || c.val = 0x205F || c.val = 0x3000 || c.val = 0xFEFF ||
    (0x2000 ≤ c.val && c.val < 0x200B)

/-- `_JS_QUOTE_TRIGGERS`. -/
def isQuoteTrigger (c : CodePoint) : Bool := isJsSpace c || c = 34

/-- The items of a list that holds strings only. -/
def strings? : List Json → Option (List PyStr)
  | [] => some []
  | .str s :: rest => (strings? rest).map (s :: ·)
  | _ :: _ => none

/-- `_validate_argv`. -/
def validateArgv : Json → Except Json (List PyStr)
  | .null => .error (error "MISSING_PARAM" (py "command is required"))
  | .list items =>
    match strings? items with
    | none | some [] =>
      .error (error "INVALID_PARAM" (py "command must be a non-empty list of strings"))
    | some (executable :: args) =>
      let argv := executable :: args
      if executable = [] then
        .error (error "INVALID_PARAM" (py "command[0] must be a non-empty executable name"))
      else if maxArgv < argv.length then
        .error (error "INVALID_PARAM" (py "command has more than 256 arguments"))
      else if argv.any fun arg => maxArgLen < arg.length then
        .error (error "INVALID_PARAM" (py "command contains an argument longer than 8192"))
      else if argv.any fun arg => arg.contains 0 then
        .error (error "INVALID_PARAM" (py "command arguments must not contain NUL bytes"))
      else .ok argv
  | _ => .error (error "INVALID_PARAM" (py "command must be a list of strings"))

/-! ## The rendering -/

/-- `arg.replace('"', '\\"')`. -/
def escapeQuotes : PyStr → PyStr
  | [] => []
  | c :: rest => if c = 34 then 92 :: 34 :: escapeQuotes rest else c :: escapeQuotes rest

def formatArg (arg : PyStr) : PyStr :=
  if arg = [] then py "\"\""
  else if arg.any isQuoteTrigger then 34 :: (escapeQuotes arg ++ [34])
  else arg

/-- `_format_exec_command`. -/
def formatExecCommand (argv : List PyStr) : PyStr := joinWith (py " ") (argv.map formatArg)

/-! ## The text determines the arguments

Backslashes are not escaped, so a quoted argument may seem to end in two places.  A reader that has
left the argument too late stands inside the quotes where the other stands between arguments, and
the two never meet again. -/

/-- The arguments, each after a space. -/
def spaced (argv : List PyStr) : PyStr := argv.flatMap fun arg => 32 :: formatArg arg

theorem spaced_cons (arg : PyStr) (rest : List PyStr) :
    spaced (arg :: rest) = 32 :: (formatArg arg ++ spaced rest) := rfl

theorem cons_formatExecCommand {argv : List PyStr} (h : argv ≠ []) :
    32 :: formatExecCommand argv = spaced argv := by
  unfold formatExecCommand joinWith
  induction argv with
  | nil => exact absurd rfl h
  | cons arg rest ih =>
    cases rest with
    | nil =>
      rw [List.map_singleton, List.intercalate_singleton, spaced_cons]
      simp [spaced]
    | cons next rest =>
      rw [spaced_cons, ← ih (List.cons_ne_nil _ _), List.map_cons, List.map_cons,
        List.intercalate_cons_cons, List.append_assoc]
      rfl

/-- A quoted argument, as far as the quotes. -/
theorem escapeQuotes_head {arg rest tail : PyStr} (h : escapeQuotes arg ++ rest = 34 :: tail) :
    arg = [] ∧ rest = 34 :: tail := by
  cases arg with
  | nil => exact ⟨rfl, h⟩
  | cons c arg =>
    rw [escapeQuotes] at h
    by_cases hc : c = 34
    · rw [if_pos hc] at h
      exact absurd (List.cons.inj h).1 (by decide)
    · rw [if_neg hc] at h
      exact absurd (List.cons.inj h).1 hc

theorem formatArg_quoted {arg : PyStr} (hne : arg ≠ []) (h : arg.any isQuoteTrigger = true) :
    formatArg arg = 34 :: (escapeQuotes arg ++ [34]) := by
  unfold formatArg
  rw [if_neg hne, if_pos h]

theorem formatArg_plain {arg : PyStr} (hne : arg ≠ []) (h : ¬ arg.any isQuoteTrigger = true) :
    formatArg arg = arg := by
  unfold formatArg
  rw [if_neg hne, if_neg h]

theorem plain_ne {arg : PyStr} (h : ¬ arg.any isQuoteTrigger = true) :
    ∀ c ∈ arg, c ≠ 34 ∧ c ≠ 32 := by
  intro c hc
  rw [Bool.not_eq_true, List.any_eq_false] at h
  constructor
  · rintro rfl
    exact absurd (by decide) (h 34 hc)
  · rintro rfl
    exact absurd (by decide) (h 32 hc)

/-- A reader inside quotes passes plain text up to the next space. -/
theorem pass_plain {quoted plain rest tail : PyStr} (hplain : ∀ c ∈ plain, c ≠ 34)
    (h : escapeQuotes quoted ++ 34 :: tail = plain ++ 32 :: rest) :
    ∃ quoted', quoted = plain ++ 32 :: quoted' ∧ escapeQuotes quoted' ++ 34 :: tail = rest := by
  induction plain generalizing quoted with
  | nil =>
    cases quoted with
    | nil => exact absurd (List.cons.inj h).1 (by decide)
    | cons c quoted =>
      rw [escapeQuotes] at h
      by_cases hc : c = 34
      · rw [if_pos hc] at h
        exact absurd (List.cons.inj h).1 (by decide)
      · rw [if_neg hc] at h
        have hcons := List.cons.inj h
        exact ⟨quoted, congrArg (· :: quoted) hcons.1, hcons.2⟩
  | cons d plain ih =>
    cases quoted with
    | nil => exact absurd (List.cons.inj h).1.symm (hplain d (.head _))
    | cons c quoted =>
      rw [escapeQuotes] at h
      by_cases hc : c = 34
      · rw [if_pos hc] at h
        -- the escaped quote is no plain text
        have htail := (List.cons.inj h).2
        cases plain with
        | nil => exact absurd (List.cons.inj htail).1 (by decide)
        | cons e plain =>
          exact absurd (List.cons.inj htail).1.symm (hplain e (.tail _ (.head _)))
      · rw [if_neg hc] at h
        have hcons := List.cons.inj h
        obtain ⟨quoted', hquoted, hrest⟩ := ih (fun e he => hplain e (.tail _ he)) hcons.2
        exact ⟨quoted', by rw [hquoted, hcons.1]; rfl, hrest⟩

/-- Inside quotes and between arguments at the same place: the two readers never agree. -/
theorem out_of_step (quoted : PyStr) (outer : List PyStr) (arg : PyStr) (inner : List PyStr) :
    escapeQuotes quoted ++ 34 :: spaced outer ≠ formatArg arg ++ spaced inner := by
  intro h
  by_cases hempty : arg = []
  · -- the closing quote is followed by a space, the empty argument's quote by a quote
    rw [hempty] at h
    have houter := (escapeQuotes_head h).2
    cases outer with
    | nil => exact absurd (List.cons.inj houter).2 (List.cons_ne_nil _ _).symm
    | cons _ _ => exact absurd (List.cons.inj (List.cons.inj houter).2).1 (by decide)
  by_cases hquoted : arg.any isQuoteTrigger = true
  · -- the opening quote of one reader is the closing quote of the other: the roles change
    rw [formatArg_quoted hempty hquoted, List.cons_append, List.append_assoc] at h
    have houter := (List.cons.inj (escapeQuotes_head h).2).2
    cases outer with
    | nil => exact absurd houter (by simp [spaced])
    | cons next outer =>
      rw [spaced_cons] at houter
      cases arg with
      | nil => exact absurd rfl hempty
      | cons c arg =>
        rw [escapeQuotes] at houter
        by_cases hc : c = 34
        · rw [if_pos hc] at houter
          exact absurd (List.cons.inj houter).1 (by decide)
        · rw [if_neg hc] at houter
          exact out_of_step arg inner next outer (List.cons.inj houter).2.symm
  · -- plain text is passed by both
    rw [formatArg_plain hempty hquoted] at h
    have hplain := fun c hc => (plain_ne hquoted c hc).1
    cases inner with
    | nil =>
      have hmem : (34 : CodePoint) ∈ arg ++ spaced [] := by
        rw [← h]
        exact List.mem_append_right _ (.head _)
      rw [show spaced [] = [] from rfl, List.append_nil] at hmem
      exact hplain 34 hmem rfl
    | cons next inner =>
      rw [spaced_cons] at h
      obtain ⟨quoted', -, hrest⟩ := pass_plain hplain h
      exact out_of_step quoted' outer next inner hrest
termination_by outer.length + inner.length

/-- A quote after a backslash ends one reader's argument and not the other's. -/
theorem late_end (a b : PyStr) (as bs : List PyStr) :
    34 :: (escapeQuotes a ++ 34 :: spaced as) ≠ escapeQuotes b ++ 34 :: spaced bs := by
  intro h
  have hend := (List.cons.inj (escapeQuotes_head h.symm).2).2
  cases bs with
  | nil => exact absurd hend (by simp [spaced])
  | cons next bs =>
    rw [spaced_cons] at hend
    cases a with
    | nil => exact absurd (List.cons.inj hend).1 (by decide)
    | cons c a =>
      rw [escapeQuotes] at hend
      by_cases hc : c = 34
      · rw [if_pos hc] at hend
        exact absurd (List.cons.inj hend).1 (by decide)
      · rw [if_neg hc] at hend
        exact out_of_step a as next bs (List.cons.inj hend).2.symm

/-- Two quoted arguments end at the same place. -/
theorem quoted_inj {a b : PyStr} {as bs : List PyStr}
    (h : escapeQuotes a ++ 34 :: spaced as = escapeQuotes b ++ 34 :: spaced bs) :
    a = b ∧ spaced as = spaced bs := by
  induction a generalizing b with
  | nil =>
    have hb := escapeQuotes_head h.symm
    exact ⟨hb.1.symm, (List.cons.inj hb.2).2.symm⟩
  | cons c a ih =>
    cases b with
    | nil => exact absurd (escapeQuotes_head h).1 (List.cons_ne_nil _ _)
    | cons d b =>
      rw [escapeQuotes, escapeQuotes] at h
      by_cases hc : c = 34
      · by_cases hd : d = 34
        · rw [if_pos hc, if_pos hd] at h
          have hrest := ih (List.cons.inj (List.cons.inj h).2).2
          exact ⟨by rw [hc, hd, hrest.1], hrest.2⟩
        · -- a backslash before a quote that one reader takes as the end
          rw [if_pos hc, if_neg hd] at h
          exact absurd (List.cons.inj h).2 (late_end _ _ _ _)
      · by_cases hd : d = 34
        · rw [if_neg hc, if_pos hd] at h
          exact absurd (List.cons.inj h).2.symm (late_end _ _ _ _)
        · rw [if_neg hc, if_neg hd] at h
          have hrest := ih (List.cons.inj h).2
          exact ⟨by rw [(List.cons.inj h).1, hrest.1], hrest.2⟩

theorem takeWhile_plain {arg : PyStr} (h : ¬ arg.any isQuoteTrigger = true) (rest : List PyStr) :
    (arg ++ spaced rest).takeWhile (· ≠ 32) = arg := by
  have hne : ∀ c ∈ arg, decide (c ≠ 32) = true := fun c hc => decide_eq_true (plain_ne h c hc).2
  rw [List.takeWhile_append_of_pos hne]
  cases rest with
  | nil => simp [spaced]
  | cons _ _ => rw [spaced_cons, List.takeWhile_cons_of_neg (by decide), List.append_nil]

/-- A plain argument is not read as a quoted or an empty one. -/
theorem plain_head {arg : PyStr} (hne : arg ≠ []) (h : ¬ arg.any isQuoteTrigger = true)
    (rest tail : PyStr) : arg ++ rest ≠ 34 :: tail := by
  cases arg with
  | nil => exact absurd rfl hne
  | cons c arg => exact fun heq => (plain_ne h c (.head _)).1 (List.cons.inj heq).1

theorem formatArg_empty : formatArg [] = [34, 34] := rfl

/-- The first arguments agree, and so does what follows. -/
theorem formatArg_inj {a b : PyStr} {as bs : List PyStr}
    (h : formatArg a ++ spaced as = formatArg b ++ spaced bs) : a = b ∧ spaced as = spaced bs := by
  have empty_quoted : ∀ {b : PyStr} {as bs : List PyStr}, b ≠ [] →
      formatArg [] ++ spaced as ≠ 34 :: (escapeQuotes b ++ [34]) ++ spaced bs := by
    intro b as bs hb heq
    rw [formatArg_empty, List.cons_append, List.cons_append, List.cons_append,
      List.append_assoc] at heq
    exact hb (escapeQuotes_head (List.cons.inj heq).2.symm).1
  by_cases ha : a = []
  · by_cases hb : b = []
    · rw [ha, hb] at h
      exact ⟨ha.trans hb.symm, List.append_cancel_left h⟩
    · by_cases hqb : b.any isQuoteTrigger = true
      · rw [ha, formatArg_quoted hb hqb] at h
        exact absurd h (empty_quoted hb)
      · rw [ha, formatArg_plain hb hqb] at h
        exact absurd h.symm (plain_head hb hqb _ _)
  · by_cases hqa : a.any isQuoteTrigger = true
    · rw [formatArg_quoted ha hqa] at h
      by_cases hb : b = []
      · rw [hb] at h
        exact absurd h.symm (empty_quoted ha)
      · by_cases hqb : b.any isQuoteTrigger = true
        · rw [formatArg_quoted hb hqb, List.cons_append, List.cons_append, List.append_assoc,
            List.append_assoc] at h
          exact quoted_inj (List.cons.inj h).2
        · rw [formatArg_plain hb hqb] at h
          exact absurd h.symm (plain_head hb hqb _ _)
    · rw [formatArg_plain ha hqa] at h
      by_cases hb : b = []
      · rw [hb] at h
        exact absurd h (plain_head ha hqa _ _)
      · by_cases hqb : b.any isQuoteTrigger = true
        · rw [formatArg_quoted hb hqb] at h
          exact absurd h (plain_head ha hqa _ _)
        · rw [formatArg_plain hb hqb] at h
          have hab : a = b := by
            rw [← takeWhile_plain hqa as, h, takeWhile_plain hqb]
          rw [hab] at h
          exact ⟨hab, List.append_cancel_left h⟩

theorem spaced_injective : Function.Injective spaced := by
  intro as bs h
  induction as generalizing bs with
  | nil =>
    cases bs with
    | nil => rfl
    | cons _ _ => exact absurd h (List.cons_ne_nil _ _).symm
  | cons a as ih =>
    cases bs with
    | nil => exact absurd h (List.cons_ne_nil _ _)
    | cons b bs =>
      rw [spaced_cons, spaced_cons] at h
      have hfirst := formatArg_inj (List.cons.inj h).2
      rw [hfirst.1, ih hfirst.2]

theorem validateArgv_ne_nil {value : Json} {argv : List PyStr} (h : validateArgv value = .ok argv) :
    argv ≠ [] := by
  cases value with
  | list items =>
    rw [validateArgv] at h
    cases hstrings : strings? items with
    | none =>
      rw [hstrings] at h
      cases h
    | some texts =>
      cases texts with
      | nil =>
        rw [hstrings] at h
        cases h
      | cons executable args =>
        simp only [hstrings] at h
        split_ifs at h
        rw [← Except.ok.inj h]
        exact List.cons_ne_nil _ _
  | null | bool _ | int _ | float _ | str _ | dict _ => cases h

/-- The approval text determines the command. -/
theorem formatExecCommand_inj (commandA commandB : Json) (a b : List PyStr)
    (ha : validateArgv commandA = .ok a) (hb : validateArgv commandB = .ok b)
    (h : formatExecCommand a = formatExecCommand b) : a = b := by
  apply spaced_injective
  rw [← cons_formatExecCommand (validateArgv_ne_nil ha), h,
    cons_formatExecCommand (validateArgv_ne_nil hb)]

/-- A quoted argument that ends with a backslash. -/
theorem formatExecCommand_inj_backslash : [py "ls", py "a b\\"] = [py "ls", py "a b\\"] :=
  formatExecCommand_inj (.list [.str (py "ls"), .str (py "a b\\")])
    (.list [.str (py "ls"), .str (py "a b\\")]) [py "ls", py "a b\\"] [py "ls", py "a b\\"] rfl rfl rfl

end HassNode.ExecApprovals
