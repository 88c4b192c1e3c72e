import HassNode.SafeFd

/-!
# What `open_safe_fd` can open

An object that is opened lies below the longest matching root and is reached from it by the
components of the path alone.  The two ways of opening agree on it.
-/

namespace HassNode.SafeFd

open Py DirTree

variable {Ino : Type}

/-! ## Names -/

theorem fsChar_ascii {c : CodePoint} {bytes : Bytes} {b : Nat} (h : fsChar c = some bytes)
    (hb : b ∈ bytes) (hascii : b < 0x80) : bytes = [c.val] ∧ b = c.val := by
  unfold fsChar at h
  split_ifs at h with hescape hbad
  · cases h
    rw [List.mem_singleton] at hb
    omega
  · have hlow : c.val < 0x80 := by
      by_contra hhigh
      rw [← Option.some.inj h] at hb
      unfold utf8Char at hb
      simp only [if_neg hhigh] at hb
      split_ifs at hb <;> simp only [List.mem_cons, List.not_mem_nil, or_false] at hb <;> omega
    have hchar : utf8Char c = [c.val] := by
      unfold utf8Char
      simp only [if_pos hlow]
    rw [← Option.some.inj h, hchar] at hb ⊢
    exact ⟨rfl, List.mem_singleton.mp hb⟩

theorem fsencode_cons {c : CodePoint} {s : PyStr} {name : Bytes} (h : fsencode (c :: s) = some name) :
    ∃ bytes rest, fsChar c = some bytes ∧ fsencode s = some rest ∧ name = bytes ++ rest := by
  cases hc : fsChar c with
  | none => rw [fsencode, hc] at h; cases h
  | some bytes =>
    cases hs : fsencode s with
    | none => rw [fsencode, hc, hs] at h; cases h
    | some rest =>
      rw [fsencode, hc, hs] at h
      exact ⟨bytes, rest, rfl, rfl, (Option.some.inj h).symm⟩

/-- An ASCII byte of a file name is a character of it. -/
theorem mem_of_mem_fsencode {s : PyStr} {name : Bytes} (h : fsencode s = some name) {c : CodePoint}
    (hc : c.val < 0x80) (hmem : c.val ∈ name) : c ∈ s := by
  induction s generalizing name with
  | nil =>
    cases h
    cases hmem
  | cons d s ih =>
    obtain ⟨bytes, rest, hd, hs, rfl⟩ := fsencode_cons h
    rcases List.mem_append.mp hmem with hfirst | hrest
    · rw [Fin.ext (fsChar_ascii hd hfirst hc).2]
      exact List.mem_cons_self
    · exact List.mem_cons_of_mem _ (ih hs hrest)

/-- A file name in ASCII is the text it was made from. -/
theorem eq_of_fsencode_ascii {s t : PyStr} (ht : Ascii t) (h : fsencode s = some (t.map Fin.val)) :
    s = t := by
  induction s generalizing t with
  | nil =>
    have hnil : t.map Fin.val = [] := (Option.some.inj h).symm
    exact (List.map_eq_nil_iff.mp hnil).symm
  | cons c s ih =>
    obtain ⟨bytes, rest, hc, hs, happend⟩ := fsencode_cons h
    have hpos : bytes ≠ [] := by
      intro hnil
      unfold fsChar at hc
      split_ifs at hc
      · rw [hnil] at hc
        cases hc
      · have hlen := length_utf8Char_pos c
        rw [Option.some.inj hc, hnil] at hlen
        exact absurd hlen (by decide)
    obtain ⟨b, more, rfl⟩ := List.exists_cons_of_ne_nil hpos
    cases t with
    | nil => cases happend
    | cons d t =>
      obtain ⟨hd, hrest⟩ := List.cons.inj happend
      have hascii := ht d List.mem_cons_self
      obtain ⟨hbytes, hval⟩ := fsChar_ascii hc List.mem_cons_self (hd ▸ hascii)
      have hmore : more = [] := (List.cons.inj hbytes).2
      have htail := ih (fun x hx => ht x (List.mem_cons_of_mem _ hx)) (by rw [hs, hrest, hmore]; rfl)
      rw [htail, Fin.ext (hval.symm.trans hd.symm)]

/-- A component that is not `..` is looked up under its own name. -/
theorem stepOf_fsencode {c : PyStr} {name : Bytes} (hc : Component c) (hup : c ≠ py "..")
    (h : fsencode c = some name) : stepOf name = .down name := by
  have hne : ∀ t : PyStr, Ascii t → c ≠ t → name ≠ t.map Fin.val := by
    intro t ht hct hname
    exact hct (eq_of_fsencode_ascii ht (hname ▸ h))
  have hhere : ¬ (name = [] ∨ name = [46]) := by
    rw [not_or]
    exact ⟨hne [] ascii_nil hc.1, hne (py ".") (ascii_of_all (by decide)) hc.2.1⟩
  have htwo : name ≠ [46, 46] := hne (py "..") (ascii_of_all (by decide)) hup
  rw [stepOf, if_neg hhere, if_neg htwo]

theorem fsencode_of_encodable {s : PyStr} (h : s.any unencodable = false) :
    fsencode s = some (s.flatMap utf8Char) := by
  induction s with
  | nil => rfl
  | cons c s ih =>
    rw [List.any_cons, Bool.or_eq_false_iff] at h
    have hescape : ¬ (0xDC80 ≤ c.val ∧ c.val ≤ 0xDCFF) := by
      have hc := h.1
      simp only [unencodable, Bool.and_eq_false_iff, decide_eq_false_iff_not] at hc
      omega
    rw [fsencode, fsChar, if_neg hescape, h.1, ih h.2]
    rfl

/-! ## The joined path -/

theorem flatMap_intercalate {α β : Type} (f : α → List β) (sep : List α) (parts : List (List α)) :
    (sep.intercalate parts).flatMap f =
      (sep.flatMap f).intercalate (parts.map fun part => part.flatMap f) := by
  induction parts with
  | nil => rfl
  | cons part parts ih =>
    cases parts with
    | nil => simp only [List.intercalate_singleton, List.map_cons, List.map_nil]
    | cons next parts =>
      rw [List.intercalate_cons_cons, List.flatMap_append, List.flatMap_append, ih]
      exact List.intercalate_cons_cons.symm

/-- The names that `openat` is given for encodable components. -/
def names (parts : List PyStr) : List Bytes := parts.map fun part => part.flatMap utf8Char

/-- The joined components, encoded, are the names with slashes between them. -/
theorem encodeUtf8_joined (parts : List PyStr) : encodeUtf8 (joinWith (py "/") parts) =
    if ∀ part ∈ parts, part.any unencodable = false then some (([47] : Bytes).intercalate (names parts))
    else none := by
  have hany : (joinWith (py "/") parts).any unencodable = true ↔
      ∃ part ∈ parts, part.any unencodable = true := by
    induction parts with
    | nil => simp [joinWith]
    | cons part parts ih =>
      cases parts with
      | nil => simp [joinWith]
      | cons next parts =>
        rw [joinWith, List.intercalate_cons_cons, List.any_append, List.any_append, Bool.or_eq_true,
          Bool.or_eq_true]
        have hslash : (py "/").any unencodable = false := by decide
        rw [hslash, ← joinWith, ih]
        simp
  have htext : (joinWith (py "/") parts).flatMap utf8Char = ([47] : Bytes).intercalate (names parts) :=
    flatMap_intercalate utf8Char (py "/") parts
  unfold encodeUtf8
  rw [htext]
  by_cases hbad : (joinWith (py "/") parts).any unencodable = true
  · rw [if_pos hbad, if_neg]
    intro hall
    obtain ⟨part, hpart, hp⟩ := hany.mp hbad
    rw [hall part hpart] at hp
    cases hp
  · rw [if_neg hbad, if_pos]
    intro part hpart
    rw [Bool.eq_false_iff]
    exact fun hp => hbad (hany.mpr ⟨part, hpart, hp⟩)

/-- Components as `_relative_to_root` leaves them. -/
def Plain (parts : List PyStr) : Prop := ∀ part ∈ parts, Component part ∧ part ≠ py ".."

theorem name_of_plain {part : PyStr} (hpart : Component part) (hcode : part.any unencodable = false) :
    part.flatMap utf8Char ≠ [] ∧ 47 ∉ part.flatMap utf8Char := by
  have hname := fsencode_of_encodable hcode
  constructor
  · intro hnil
    exact hpart.1 (eq_of_fsencode_ascii ascii_nil (hname.trans (congrArg some hnil)))
  · intro hslash
    exact hpart.2.2 (mem_of_mem_fsencode hname (c := 47) (by decide) hslash)

/-- The kernel reads the components back from the joined path. -/
theorem steps_joined {parts : List PyStr} (hplain : Plain parts) (hne : parts ≠ [])
    (hcode : ∀ part ∈ parts, part.any unencodable = false) :
    ((([47] : Bytes).intercalate (names parts)).splitOn 47).map stepOf =
      (names parts).map .down := by
  have hslash : ∀ name ∈ names parts, 47 ∉ name := by
    intro name hname
    obtain ⟨part, hpart, rfl⟩ := List.mem_map.mp hname
    exact (name_of_plain (hplain part hpart).1 (hcode part hpart)).2
  rw [List.splitOn_intercalate 47 hslash (mt List.map_eq_nil_iff.mp hne)]
  apply List.map_congr_left
  intro name hname
  obtain ⟨part, hpart, rfl⟩ := List.mem_map.mp hname
  exact stepOf_fsencode (hplain part hpart).1 (hplain part hpart).2
    (fsencode_of_encodable (hcode part hpart))

theorem head_joined {parts : List PyStr} (hplain : Plain parts) (hne : parts ≠ [])
    (hcode : ∀ part ∈ parts, part.any unencodable = false) :
    ([47] : Bytes).intercalate (names parts) ≠ [] ∧
      (([47] : Bytes).intercalate (names parts)).head? ≠ some 47 := by
  obtain ⟨part, rest, rfl⟩ := List.exists_cons_of_ne_nil hne
  obtain ⟨hfull, hslash⟩ := name_of_plain (hplain part List.mem_cons_self).1
    (hcode part List.mem_cons_self)
  obtain ⟨b, name, hname⟩ := List.exists_cons_of_ne_nil hfull
  have hstart : ∃ more, ([47] : Bytes).intercalate (names (part :: rest)) = b :: more := by
    rw [names, List.map_cons, hname]
    cases rest with
    | nil => exact ⟨name, List.intercalate_singleton⟩
    | cons next rest => exact ⟨_, List.intercalate_cons_cons⟩
  obtain ⟨more, hmore⟩ := hstart
  rw [hname, List.mem_cons, not_or] at hslash
  rw [hmore]
  exact ⟨List.cons_ne_nil _ _, fun h => hslash.1 (Option.some.inj h).symm⟩

/-! ## The two ways of opening -/

/-- What both ways open below `rootFd`. -/
def Kernel.Opens (k : Kernel Ino) (rootFd : Ino) (parts : List PyStr) (flags : Flags) (i : Ino) :
    Prop :=
  if parts = [] then k.tree.openAt rootFd .here flags = .ok i
  else ∃ ns, List.Forall₂ (fun part name => fsencode part = some name) parts ns ∧
    k.tree.Descends rootFd ns i ∧ k.tree.openNode i flags = .ok i

theorem forall₂_names {parts : List PyStr} (hcode : ∀ part ∈ parts, part.any unencodable = false) :
    List.Forall₂ (fun part name => fsencode part = some name) parts (names parts) := by
  rw [names, List.forall₂_map_right_iff, List.forall₂_same]
  intro part hpart
  exact fsencode_of_encodable (hcode part hpart)

theorem forall₂_unique {parts : List PyStr} {ns ms : List Bytes}
    (hn : List.Forall₂ (fun part name => fsencode part = some name) parts ns)
    (hm : List.Forall₂ (fun part name => fsencode part = some name) parts ms) : ns = ms := by
  induction hn generalizing ms with
  | nil =>
    cases hm
    rfl
  | cons hname _ ih =>
    cases hm with
    | cons hother hrest => rw [Option.some.inj (hname.symm.trans hother), ih hrest]

/-- One turn of the loop. -/
theorem fallbackWalk_cons {k : Kernel Ino} {path : PyStr} {flags : Flags} {part : PyStr}
    {rest : List PyStr} {current i : Ino} :
    k.fallbackWalk path flags current (part :: rest) = .ok i ↔
      ∃ name j, fsencode part = some name ∧
        k.tree.openAt current (stepOf name) (if rest = [] then flags else ⟨true, true⟩) = .ok j ∧
        k.tree.isSymlink j = false ∧ k.fallbackWalk path flags j rest = .ok i := by
  rw [Kernel.fallbackWalk]
  cases hcode : fsencode part with
  | none => simp
  | some name =>
    cases hopen : k.tree.openAt current (stepOf name) (if rest = [] then flags else ⟨true, true⟩) with
    | error e =>
      constructor
      · intro h
        dsimp only at h
        rw [hopen] at h
        dsimp only at h
        split_ifs at h
      · intro ⟨other, j, hother, hj, _⟩
        rw [← Option.some.inj hother, hopen] at hj
        cases hj
    | ok j =>
      dsimp only
      rw [hopen]
      dsimp only
      constructor
      · intro h
        split_ifs at h with hlink
        exact ⟨name, j, rfl, hopen, Bool.eq_false_iff.mpr hlink, h⟩
      · intro ⟨other, l, hother, hl, hlink, h⟩
        rw [← Option.some.inj hother, hopen] at hl
        have heq := Except.ok.inj hl
        subst heq
        rw [hlink]
        exact h

theorem fallbackWalk_ok_iff {k : Kernel Ino} {path : PyStr} {flags : Flags} {parts : List PyStr}
    (hplain : Plain parts) (hne : parts ≠ []) {current i : Ino} :
    k.fallbackWalk path flags current parts = .ok i ↔
      ∃ ns, List.Forall₂ (fun part name => fsencode part = some name) parts ns ∧
        k.tree.Descends current ns i ∧ k.tree.openNode i flags = .ok i := by
  induction parts generalizing current with
  | nil => exact absurd rfl hne
  | cons part rest ih =>
    have hhead := hplain part List.mem_cons_self
    have htail : Plain rest := fun p hp => hplain p (List.mem_cons_of_mem _ hp)
    rw [fallbackWalk_cons]
    by_cases hrest : rest = []
    · -- the final component, opened with the flags of the caller
      subst hrest
      constructor
      · intro ⟨name, j, hcode, hopen, hlink, hend⟩
        rw [stepOf_fsencode hhead.1 hhead.2 hcode, if_pos rfl, Tree.openAt_down_iff] at hopen
        have hji : j = i := Except.ok.inj hend
        subst hji
        exact ⟨[name], .cons hcode .nil, .down hopen.1 hlink (.here j), hopen.2⟩
      · intro ⟨ns, hnames, hdescends, hnode⟩
        cases hnames with
        | cons hcode hnil =>
          cases hnil
          obtain ⟨j, hentry, hlink, hend⟩ := Tree.Descends.cons_iff.mp hdescends
          rw [Tree.Descends.nil_iff.mp hend] at hnode ⊢
          refine ⟨_, j, hcode, ?_, hlink, rfl⟩
          rw [stepOf_fsencode hhead.1 hhead.2 hcode, if_pos rfl, Tree.openAt_down_iff]
          exact ⟨hentry, hnode⟩
    · -- a component on the way, opened as a directory to walk on from
      rw [if_neg hrest]
      constructor
      · intro ⟨name, j, hcode, hopen, hlink, hwalk⟩
        rw [stepOf_fsencode hhead.1 hhead.2 hcode, Tree.openAt_down_iff] at hopen
        obtain ⟨ns, hnames, hdescends, hnode⟩ := (ih htail hrest).mp hwalk
        exact ⟨name :: ns, .cons hcode hnames, .down hopen.1 hlink hdescends, hnode⟩
      · intro ⟨ns, hnames, hdescends, hnode⟩
        cases hnames with
        | cons hcode hmore =>
          obtain ⟨j, hentry, hlink, hbelow⟩ := Tree.Descends.cons_iff.mp hdescends
          have hdir : k.tree.isDirectory j = true := by
            cases hmore with
            | nil => exact absurd rfl hrest
            | cons _ _ => exact hbelow.directory_of_cons
          refine ⟨_, j, hcode, ?_, hlink, (ih htail hrest).mpr ⟨_, hmore, hbelow, hnode⟩⟩
          rw [stepOf_fsencode hhead.1 hhead.2 hcode, Tree.openAt_down_iff]
          exact ⟨hentry, Tree.openNode_directory_path.mpr ⟨rfl, hdir⟩⟩

theorem fallbackOpenat_ok_iff {k : Kernel Ino} {path : PyStr} {flags : Flags} {parts : List PyStr}
    (hplain : Plain parts) {rootFd i : Ino} :
    k.fallbackOpenat rootFd parts path flags = .ok i ↔ k.Opens rootFd parts flags i := by
  unfold Kernel.fallbackOpenat Kernel.Opens
  by_cases hnil : parts = []
  · rw [if_pos hnil, if_pos hnil]
    cases k.tree.openAt rootFd .here flags with
    | error e => simp
    | ok j => simp
  · rw [if_neg hnil, if_neg hnil]
    exact fallbackWalk_ok_iff hplain hnil

/-- The bytes of the path below the root, a lone dot for the root itself. -/
def relLength (parts : List PyStr) : Nat :=
  if parts = [] then 1 else (([47] : Bytes).intercalate (names parts)).length

/-- What the system call opens. -/
theorem openat2_ok_iff {k : Kernel Ino} {flags : Flags} {parts : List PyStr} (hplain : Plain parts)
    (hcode : ∀ part ∈ parts, part.any unencodable = false) {rootFd i : Ino} {rel : Bytes}
    (hrel : encodeUtf8 (if parts = [] then py "." else joinWith (py "/") parts) = some rel) :
    k.openat2 rootFd rel flags = .ok i ↔
      k.hasOpenat2 = true ∧ relLength parts < pathMax ∧ k.Opens rootFd parts flags i := by
  unfold Kernel.openat2 relLength Kernel.Opens
  by_cases hnil : parts = []
  · rw [if_pos hnil] at hrel
    have hdot : rel = [46] := (Option.some.inj hrel).symm
    subst hdot
    rw [if_pos hnil, if_pos hnil]
    have hwalk : k.tree.openBeneath rootFd ((([46] : Bytes).splitOn 47).map stepOf) flags =
        k.tree.openAt rootFd .here flags := by
      show (k.tree.walkBeneath [] rootFd [.here]).bind (fun j => k.tree.openNode j flags) =
        (k.tree.child rootFd .here).bind fun j => k.tree.openNode j flags
      show ((k.tree.child rootFd .here).bind fun j => Except.ok j).bind _ = _
      cases k.tree.child rootFd .here <;> rfl
    rw [hwalk]
    cases k.hasOpenat2 <;> simp [pathMax]
  · rw [if_neg hnil, encodeUtf8_joined, if_pos hcode] at hrel
    have hjoined := (Option.some.inj hrel).symm
    subst hjoined
    obtain ⟨hne, hhead⟩ := head_joined hplain hnil hcode
    rw [if_neg hnil, if_neg hnil, if_neg hne, if_neg hhead, steps_joined hplain hnil hcode]
    have hopens : (∃ ns, List.Forall₂ (fun part name => fsencode part = some name) parts ns ∧
        k.tree.Descends rootFd ns i ∧ k.tree.openNode i flags = .ok i) ↔
        k.tree.openBeneath rootFd ((names parts).map .down) flags = .ok i := by
      rw [Tree.openBeneath_down_iff]
      constructor
      · intro ⟨ns, hnames, h⟩
        exact forall₂_unique hnames (forall₂_names hcode) ▸ h
      · intro h
        exact ⟨_, forall₂_names hcode, h⟩
    rw [hopens]
    cases k.hasOpenat2 with
    | false => simp
    | true =>
      by_cases hlong : pathMax ≤ (([47] : Bytes).intercalate (names parts)).length
      · simp [hlong]
      · simp [hlong, Nat.lt_of_not_le hlong]

theorem openat2Beneath_ok_iff {k : Kernel Ino} {path : PyStr} {flags : Flags} {parts : List PyStr}
    (hplain : Plain parts) {rootFd i : Ino} :
    k.openat2Beneath rootFd parts path flags = .ok i ↔
      (k.syscallNumber ≠ none ∧ k.hasOpenat2 = true) ∧
        (∀ part ∈ parts, part.any unencodable = false) ∧ relLength parts < pathMax ∧
        k.Opens rootFd parts flags i := by
  unfold Kernel.openat2Beneath
  cases k.syscallNumber with
  | none => simp
  | some number =>
    -- the parts are joined before the call, so they have to be encodable
    cases hrel : encodeUtf8 (if parts = [] then py "." else joinWith (py "/") parts) with
    | none =>
      have hbad : ¬ ∀ part ∈ parts, part.any unencodable = false := by
        intro hcode
        by_cases hnil : parts = []
        · rw [if_pos hnil] at hrel
          cases hrel
        · rw [if_neg hnil, encodeUtf8_joined, if_pos hcode] at hrel
          cases hrel
      constructor
      · intro h
        cases h
      · intro h
        exact absurd h.2.1 hbad
    | some rel =>
      have hcode : ∀ part ∈ parts, part.any unencodable = false := by
        intro part hpart
        by_contra hbad
        rw [if_neg (List.ne_nil_of_mem hpart), encodeUtf8_joined,
          if_neg fun hall => hbad (hall part hpart)] at hrel
        cases hrel
      have hcall : k.openat2 rootFd rel flags = .ok i ↔
          k.hasOpenat2 = true ∧ relLength parts < pathMax ∧ k.Opens rootFd parts flags i :=
        openat2_ok_iff hplain hcode hrel
      dsimp only
      cases hresult : k.openat2 rootFd rel flags with
      | ok j =>
        rw [hresult, Except.ok.injEq] at hcall
        dsimp only
        rw [Except.ok.injEq, hcall]
        constructor
        · intro h
          exact ⟨⟨Option.some_ne_none _, h.1⟩, hcode, h.2⟩
        · intro h
          exact ⟨h.1.2, h.2.2⟩
      | error e =>
        rw [hresult] at hcall
        dsimp only
        constructor
        · intro h
          split_ifs at h
        · intro h
          have hok := hcall.mpr ⟨h.1.2, h.2.2⟩
          cases hok

/-! ## The root -/

theorem mem_matchingRoots {path : PyStr} {raw : PurePath} {roots : List PurePath}
    {ms : List (PurePath × List PyStr)} (h : matchingRoots path raw roots = .ok ms) :
    (∀ m ∈ ms, m.1 ∈ roots ∧ raw.relativeTo m.1 = some m.2 ∧ py ".." ∉ m.2) ∧
      ∀ root ∈ roots, raw.isRelativeTo root = true → ∃ m ∈ ms, m.1 = root := by
  induction roots generalizing ms with
  | nil =>
    cases h
    exact ⟨fun m hm => absurd hm List.not_mem_nil, fun root hroot => absurd hroot List.not_mem_nil⟩
  | cons root roots ih =>
    rw [matchingRoots] at h
    cases hrel : raw.relativeTo root with
    | none =>
      rw [hrel] at h
      obtain ⟨hfound, hall⟩ := ih h
      constructor
      · intro m hm
        exact ⟨List.mem_cons_of_mem _ (hfound m hm).1, (hfound m hm).2⟩
      · intro r hr hmatch
        rcases List.mem_cons.mp hr with rfl | hr
        · rw [PurePath.relativeTo, if_pos hmatch] at hrel
          cases hrel
        · exact hall r hr hmatch
    | some parts =>
      rw [hrel] at h
      dsimp only at h
      -- a part that leads upwards ends the search for every root
      by_cases hup : py ".." ∈ parts
      · rw [if_pos hup] at h
        cases h
      · rw [if_neg hup] at h
        cases hrest : matchingRoots path raw roots with
        | error e =>
          rw [hrest] at h
          cases h
        | ok rest =>
          rw [hrest] at h
          have hms : (root, parts) :: rest = ms := Except.ok.inj h
          subst hms
          obtain ⟨hfound, hall⟩ := ih hrest
          constructor
          · intro m hm
            rcases List.mem_cons.mp hm with rfl | hm
            · exact ⟨List.mem_cons_self, hrel, hup⟩
            · exact ⟨List.mem_cons_of_mem _ (hfound m hm).1, (hfound m hm).2⟩
          · intro r hr hmatch
            rcases List.mem_cons.mp hr with rfl | hr
            · exact ⟨_, List.mem_cons_self, rfl⟩
            · obtain ⟨m, hm, hmr⟩ := hall r hr hmatch
              exact ⟨m, List.mem_cons_of_mem _ hm, hmr⟩

theorem longest_spec (best : PurePath × List PyStr) (ms : List (PurePath × List PyStr)) :
    longest best ms ∈ best :: ms ∧
      ∀ m ∈ best :: ms, m.1.parts.length ≤ (longest best ms).1.parts.length := by
  induction ms generalizing best with
  | nil =>
    constructor
    · exact List.mem_cons_self
    · intro m hm
      rw [List.mem_singleton.mp hm]
      exact Nat.le_refl _
  | cons m ms ih =>
    rw [longest]
    by_cases hlt : best.1.parts.length < m.1.parts.length
    · rw [if_pos hlt]
      obtain ⟨hmem, hmax⟩ := ih m
      have hm := hmax m List.mem_cons_self
      constructor
      · exact List.mem_cons_of_mem _ hmem
      · intro x hx
        rcases List.mem_cons.mp hx with rfl | hx
        · omega
        · exact hmax x hx
    · rw [if_neg hlt]
      obtain ⟨hmem, hmax⟩ := ih best
      have hbest := hmax best List.mem_cons_self
      constructor
      · rcases List.mem_cons.mp hmem with heq | hmem
        · rw [heq]
          exact List.mem_cons_self
        · exact List.mem_cons_of_mem _ (List.mem_cons_of_mem _ hmem)
      · intro x hx
        rcases List.mem_cons.mp hx with rfl | hx
        · exact hbest
        · rcases List.mem_cons.mp hx with rfl | hx
          · omega
          · exact hmax x (List.mem_cons_of_mem _ hx)

/-- `root` is a longest allowed root above `path`, and `parts` are the components below it. -/
structure Rooted (path : PyStr) (roots : List PurePath) (root : PurePath) (parts : List PyStr) :
    Prop where
  allowed : root ∈ roots
  below : (PurePath.parse path).relativeTo root = some parts
  longest : ∀ r ∈ roots, (PurePath.parse path).isRelativeTo r = true →
    r.parts.length ≤ root.parts.length
  noUp : py ".." ∉ parts

theorem rooted_of_relativeToRoot {path : PyStr} {roots : List PurePath} {root : PurePath}
    {parts : List PyStr} (h : relativeToRoot path roots = .ok (root, parts)) :
    Rooted path roots root parts := by
  unfold relativeToRoot at h
  dsimp only at h
  split_ifs at h
  split at h
  · cases h
  · cases h
  · rename_i m ms hmatch
    obtain ⟨hfound, hall⟩ := mem_matchingRoots hmatch
    obtain ⟨hmem, hmax⟩ := longest_spec m ms
    rw [Except.ok.inj h] at hmem hmax
    obtain ⟨hroot, hbelow, hup⟩ := hfound _ hmem
    constructor
    · exact hroot
    · exact hbelow
    · intro r hr hrel
      obtain ⟨x, hx, rfl⟩ := hall r hr hrel
      exact hmax x hx
    · exact hup

theorem Rooted.plain {path : PyStr} {roots : List PurePath} {root : PurePath} {parts : List PyStr}
    (h : Rooted path roots root parts) : Plain parts := by
  intro part hpart
  refine ⟨PurePath.component_of_relativeTo h.below hpart, ?_⟩
  intro hup
  exact h.noUp (hup ▸ hpart)

/-! ## Containment and agreement -/

/-- `i` lies below the longest allowed root above `path`: the components of the path lead to it from
the directory of that root, through directories and no symbolic link. -/
def Kernel.Beneath (k : Kernel Ino) (path : PyStr) (roots : List PurePath) (i : Ino) : Prop :=
  ∃ root parts rootFd ns, Rooted path roots root parts ∧ k.openRoot root = .ok rootFd ∧
    List.Forall₂ (fun part name => fsencode part = some name) parts ns ∧
    k.tree.Descends rootFd ns i ∧ k.tree.isSymlink i = false

theorem Kernel.Opens.beneath {k : Kernel Ino} {path : PyStr} {roots : List PurePath} {root : PurePath}
    {parts : List PyStr} {rootFd i : Ino} {flags : Flags} (hrooted : Rooted path roots root parts)
    (hroot : k.openRoot root = .ok rootFd) (h : k.Opens rootFd parts flags i) :
    k.Beneath path roots i := by
  have hdir := Tree.isSymlink_of_isDirectory (k.openRoot_directory hroot)
  unfold Kernel.Opens at h
  by_cases hnil : parts = []
  · subst hnil
    rw [if_pos rfl] at h
    have hself : i = rootFd := by
      cases hchild : k.tree.child rootFd .here with
      | error e =>
        rw [Tree.openAt, hchild] at h
        cases h
      | ok j =>
        rw [Tree.openAt, hchild] at h
        have hj : j = rootFd := by
          unfold Tree.child at hchild
          split at hchild
          · split_ifs at hchild
            exact (Except.ok.inj hchild).symm
          · cases hchild
        rw [← hj]
        exact Tree.openNode_ok h
    rw [hself]
    exact ⟨root, [], rootFd, [], hrooted, hroot, .nil, .here rootFd, hdir⟩
  · rw [if_neg hnil] at h
    obtain ⟨ns, hnames, hdescends, -⟩ := h
    exact ⟨root, parts, rootFd, ns, hrooted, hroot, hnames, hdescends, hdescends.not_symlink hdir⟩

theorem openSafeFd_beneath {k : Kernel Ino} {path : PyStr} {roots : List PurePath} {dirFdOnly : Bool}
    {i : Ino} (h : k.openSafeFd path roots dirFdOnly = .ok i) : k.Beneath path roots i := by
  unfold Kernel.openSafeFd at h
  split_ifs at h
  cases hrel : relativeToRoot path roots with
  | error e =>
    rw [hrel] at h
    cases h
  | ok found =>
    obtain ⟨root, parts⟩ := found
    have hrooted := rooted_of_relativeToRoot hrel
    cases hroot : k.openRoot root with
    | error e =>
      rw [hrel] at h
      change (k.openRoot root).bind _ = _ at h
      rw [hroot] at h
      cases h
    | ok rootFd =>
      rw [hrel] at h
      change (k.openRoot root).bind _ = _ at h
      rw [hroot] at h
      dsimp only [Except.bind] at h
      cases hcall : k.openat2Beneath rootFd parts path (finalFlags dirFdOnly) with
      | ok j =>
        rw [hcall] at h
        cases h
        exact ((openat2Beneath_ok_iff hrooted.plain).mp hcall).2.2.2.beneath hrooted hroot
      | error e =>
        rw [hcall] at h
        cases e with
        | os errno => exact ((fallbackOpenat_ok_iff hrooted.plain).mp h).beneath hrooted hroot
        | _ => cases h

/-- Whatever is opened lies beneath its root.  Component by component the same object is opened as
through `openat2`, and where `openat2` fails on a path that a system call can take, the components fail
as well. -/
theorem opens_beneath (k : Kernel Ino) (path : PyStr) (roots : List PurePath) (dirFdOnly : Bool) :
    (∀ i, k.openSafeFd path roots dirFdOnly = .ok i → k.Beneath path roots i) ∧
      ∀ root parts rootFd, relativeToRoot path roots = .ok (root, parts) →
        k.openRoot root = .ok rootFd → k.syscallNumber ≠ none → k.hasOpenat2 = true →
        (∀ i, k.openat2Beneath rootFd parts path (finalFlags dirFdOnly) = .ok i →
          k.fallbackOpenat rootFd parts path (finalFlags dirFdOnly) = .ok i) ∧
        ((∀ part ∈ parts, part.any unencodable = false) → relLength parts < pathMax →
          ∀ e, k.openat2Beneath rootFd parts path (finalFlags dirFdOnly) = .error e →
            ∃ e', k.fallbackOpenat rootFd parts path (finalFlags dirFdOnly) = .error e') := by
  constructor
  · intro i h
    exact openSafeFd_beneath h
  · intro root parts rootFd hrel _ hnumber hcall
    have hplain := (rooted_of_relativeToRoot hrel).plain
    constructor
    · intro i h
      exact (fallbackOpenat_ok_iff hplain).mpr ((openat2Beneath_ok_iff hplain).mp h).2.2.2
    · intro hcode hshort e h
      cases hfallback : k.fallbackOpenat rootFd parts path (finalFlags dirFdOnly) with
      | error e' => exact ⟨e', rfl⟩
      | ok i =>
        have hopens := (fallbackOpenat_ok_iff hplain).mp hfallback
        rw [(openat2Beneath_ok_iff hplain).mpr ⟨⟨hnumber, hcall⟩, hcode, hshort, hopens⟩] at h
        cases h

/-- Seventeen directories under `/config`, each the only entry of the one above, and a file in the last. -/
def deepName : Bytes := List.replicate 255 97

def deepKernel : Kernel Nat where
  tree :=
    { node := fun n =>
        if n < 17 then
          .directory (n - 1) true fun name => if name = deepName then some (n + 1) else none
        else .file []
      tooLong := fun name => decide (255 < name.length)
      refusal := fun _ => none }
  openRoot := fun root => if root = PurePath.parse (py "/config") then .ok 0 else .error (.os .noEntry)
  openRoot_directory := by
    intro root i h
    split_ifs at h
    cases h
    rfl
  sysOpenat2 := none
  machine := py "aarch64"
  hasOpenat2 := true

def deepParts (n : Nat) : List PyStr := List.replicate n (List.replicate 255 97)

def deepPath (n : Nat) : PyStr := py "/config/" ++ joinWith (py "/") (deepParts n)

theorem opens_beneath_deep :
    deepKernel.openat2Beneath 0 (deepParts 2) (deepPath 2) (finalFlags true) = .ok 2 ∧
      deepKernel.fallbackOpenat 0 (deepParts 2) (deepPath 2) (finalFlags true) = .ok 2 := by
  have hopen : deepKernel.openat2Beneath 0 (deepParts 2) (deepPath 2) (finalFlags true) = .ok 2 := by
    decide +kernel
  have hrel : relativeToRoot (deepPath 2) [PurePath.parse (py "/config")] =
      .ok (PurePath.parse (py "/config"), deepParts 2) := by
    decide +kernel
  exact ⟨hopen, ((opens_beneath deepKernel (deepPath 2) [PurePath.parse (py "/config")] true).2 _ _ _
    hrel rfl (by decide) rfl).1 2 hopen⟩

/-- A path that is too long for the system call is opened component by component. -/
theorem long_path_opened : ∃ parts,
    relativeToRoot (deepPath 17) [PurePath.parse (py "/config")] =
        .ok (PurePath.parse (py "/config"), parts) ∧
      deepKernel.syscallNumber ≠ none ∧ deepKernel.hasOpenat2 = true ∧
      deepKernel.openat2Beneath 0 parts (deepPath 17) (finalFlags false) = .error (.os .nameTooLong) ∧
      deepKernel.fallbackOpenat 0 parts (deepPath 17) (finalFlags false) = .ok 17 := by
  refine ⟨deepParts 17, ?_, by decide, rfl, ?_, ?_⟩
  · decide +kernel
  · decide +kernel
  · decide +kernel

end HassNode.SafeFd
