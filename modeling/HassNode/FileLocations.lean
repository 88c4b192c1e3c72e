import HassNode.FileHost

/-!
# Where a path lies on the disk

With allowed roots that are real paths, everything `safe_fd.py` opens lies where the components of the
path say, and no link is on the way.  The text of a resolved path then tells whether an object is under
a protected root.
-/

namespace HassNode.FsMutations

open Py DirTree PathDisk SafeFd

/-- What the components of a path name on the disk. -/
structure Located (path : PyStr) (i : List Bytes) : Prop where
  noUp : py ".." ∉ (PurePath.parse path).tail
  encoded : Encoded (PurePath.parse path).tail i

/-- Every allowed root is a real path: a mount, or what `Path.resolve` returned. -/
def Host.RealRoots (h : Host) (d : FileDisk) : Prop :=
  ∀ root ∈ h.roots, py ".." ∉ root.tail ∧ ∀ i, Encoded root.tail i → d.Straight i

variable {h : Host} {d d' : FileDisk} {path : PyStr} {i j dir : List Bytes} {name : Bytes}

/-! ## Components -/

theorem encoded_unique {parts : List PyStr} (hi : Encoded parts i) (hj : Encoded parts j) : i = j :=
  forall₂_unique hi hj

theorem Located.unique (hi : Located path i) (hj : Located path j) : i = j :=
  encoded_unique hi.encoded hj.encoded

theorem steps_encoded {parts : List PyStr} (hproper : ∀ c ∈ parts, Component c)
    (hup : py ".." ∉ parts) (hi : Encoded parts i) : i.map stepOf = i.map .down := by
  induction hi with
  | nil => rfl
  | @cons part name parts names hname _ ih =>
    rw [List.mem_cons, not_or] at hup
    rw [List.forall_mem_cons] at hproper
    rw [List.map_cons, List.map_cons, stepOf_fsencode hproper.1 (Ne.symm hup.1) hname,
      ih hproper.2 hup.2]

/-- A path of which no component is a link leads where its components say. -/
theorem leads_encoded {p : PurePath} (hup : py ".." ∉ p.tail) (hi : Encoded p.tail i)
    (hstraight : d.Straight i) : Leads d p i := by
  refine ⟨i, hi, ?_⟩
  rw [steps_encoded p.proper hup hi]
  have hresolves : d.Resolves [] (i.map .down) ([] ++ i) := Disk.Straight.resolves hstraight
  exact hresolves

theorem Located.leads (hlocated : Located path i) (hstraight : d.Straight i) :
    Leads d (PurePath.parse path) i :=
  leads_encoded hlocated.noUp hlocated.encoded hstraight

theorem Leads.unique {p : PurePath} (hi : Leads d p i) (hj : Leads d p j) : i = j := by
  obtain ⟨names, hnames, hresolves⟩ := hi
  obtain ⟨names', hnames', hresolves'⟩ := hj
  obtain rfl := encoded_unique hnames hnames'
  exact hresolves.unique hresolves'

/-- `Path(str(path))` has the components of the path. -/
theorem tail_parse_str (p : PurePath) : (PurePath.parse p.str).tail = p.tail := by
  show PurePath.components (PurePath.splitroot p.str).2 = p.tail
  have hjoin := RealPath.head_join p.proper
  have hcomponents := RealPath.components_join p.proper
  obtain ⟨anchor, tail, proper⟩ := p
  cases anchor with
  | relative =>
    by_cases htail : tail = []
    · subst htail
      rfl
    · rw [PurePath.str, if_neg fun hnil => htail hnil.2]
      show PurePath.components (PurePath.splitroot (joinWith (py "/") tail)).2 = tail
      rw [PurePath.splitroot, if_pos hjoin, hcomponents]
  | root =>
    show PurePath.components (PurePath.splitroot (47 :: joinWith (py "/") tail)).2 = tail
    rw [PurePath.splitroot, if_neg (by simp), List.tail_cons, if_pos hjoin, hcomponents]
  | doubleRoot =>
    show PurePath.components (PurePath.splitroot (47 :: 47 :: joinWith (py "/") tail)).2 = tail
    rw [PurePath.splitroot, if_neg (by simp), List.tail_cons, if_neg (by simp), List.tail_cons,
      if_neg hjoin, hcomponents]

theorem name_ne_nil {p : PurePath} (h : p.tail ≠ []) : p.name ≠ [] := by
  rw [PurePath.name, List.getLast?_eq_some_getLast h]
  exact (p.proper _ (List.getLast_mem h)).1

theorem parentOf_tail {p : PurePath} (hname : p.name ≠ []) :
    p.tail = (parentOf p).tail ++ [p.name] := by
  unfold PurePath.name at hname ⊢
  cases hlast : p.tail.getLast? with
  | none =>
    rw [hlast] at hname
    exact absurd rfl hname
  | some last =>
    obtain ⟨init, hinit⟩ := List.getLast?_eq_some_iff.mp hlast
    show p.tail = p.tail.dropLast ++ [last]
    rw [hinit, List.dropLast_concat]

/-! ## What is opened -/

theorem Host.RealRoots.opened {root : PurePath} (hroots : h.RealRoots d) (hroot : root ∈ h.roots)
    (hopen : h.openRoot d root = .ok i) : Encoded root.tail i ∧ d.Straight i := by
  obtain ⟨hleads, -⟩ := h.openRoot_ok hopen
  obtain ⟨names, hnames, -⟩ := id hleads
  have hstraight := (hroots root hroot).2 names hnames
  obtain rfl := hleads.unique (leads_encoded (hroots root hroot).1 hnames hstraight)
  exact ⟨hnames, hstraight⟩

/-- What is opened lies where the path says, behind no link. -/
theorem opened_located {dirFdOnly : Bool} (hroots : h.RealRoots d)
    (hopen : (h.kernel d).openSafeFd path h.roots dirFdOnly = .ok i) :
    Located path i ∧ d.Straight i := by
  obtain ⟨root, parts, rootFd, ns, hrooted, hroot, hparts, hdescends, -⟩ := openSafeFd_beneath hopen
  obtain ⟨hrootTail, hstraight⟩ := hroots.opened hrooted.allowed hroot
  obtain ⟨-, htail⟩ := PurePath.relativeTo_eq_some.mp hrooted.below
  obtain ⟨rfl, hresolves⟩ := Disk.descends_tree hdescends
  refine ⟨⟨?_, ?_⟩, hresolves.straight hstraight⟩
  · rw [htail, List.mem_append, not_or]
    exact ⟨(hroots root hrooted.allowed).1, hrooted.noUp⟩
  · rw [htail]
    exact List.rel_append hrootTail hparts

/-- What is opened and no directory has a name. -/
theorem opened_ne_nil {dirFdOnly : Bool} (hopen : (h.kernel d).openSafeFd path h.roots dirFdOnly = .ok i)
    (hfile : ¬ d.IsDirectory i) : i ≠ [] := by
  rintro rfl
  obtain ⟨root, parts, rootFd, ns, -, hroot, -, hdescends, -⟩ := openSafeFd_beneath hopen
  obtain ⟨hnil, -⟩ := Disk.descends_tree hdescends
  obtain ⟨rfl, -⟩ := List.append_eq_nil_iff.mp hnil.symm
  exact hfile (h.openRoot_ok hroot).2

/-- The directory that a path is taken in, and its name there. -/
theorem Host.ParentDir.located (hroots : h.RealRoots d) (hparent : h.ParentDir d path dir name) :
    Located path (dir ++ [name]) ∧ d.Straight dir := by
  obtain ⟨hname, hup, hcode, hopen⟩ := hparent
  obtain ⟨hdir, hstraight⟩ := opened_located hroots hopen
  have htail := parentOf_tail hname
  obtain ⟨hnoUp, hencoded⟩ := hdir
  rw [tail_parse_str] at hnoUp hencoded
  refine ⟨⟨?_, ?_⟩, hstraight⟩
  · rw [htail, List.mem_append, not_or, List.mem_singleton]
    exact ⟨hnoUp, Ne.symm hup⟩
  · rw [htail]
    exact List.rel_append hencoded (.cons hcode .nil)

/-! ## What is not found -/

theorem fallbackWalk_missing {flags : Flags} {parts : List PyStr} {names : List Bytes}
    (hproper : ∀ c ∈ parts, Component c) (hup : py ".." ∉ parts) (hnames : Encoded parts names)
    (hwalk : (h.kernel d).fallbackWalk path flags dir parts = .error (.os .noEntry)) :
    d.node (dir ++ names) = none := by
  induction hnames generalizing dir with
  | nil => cases hwalk
  | @cons part name parts names hname _ ih =>
    rw [List.mem_cons, not_or] at hup
    rw [List.forall_mem_cons] at hproper
    rw [Kernel.fallbackWalk, hname] at hwalk
    dsimp only at hwalk
    rw [stepOf_fsencode hproper.1 (Ne.symm hup.1) hname] at hwalk
    rw [List.append_cons]
    split at hwalk
    · rename_i e hopen
      split_ifs at hwalk
      · cases hwalk
      · injection hwalk with hwalk
        injection hwalk with hwalk
        exact Disk.node_append_eq_none (Disk.node_eq_none_of_openAt (hwalk ▸ hopen)) names
    · rename_i next hopen
      obtain rfl := Disk.openAt_tree_ok hopen
      split_ifs at hwalk
      · cases hwalk
      · exact ih hproper.2 hup.2 hwalk

theorem fallback_missing {flags : Flags} {parts : List PyStr} {names : List Bytes} (hplain : Plain parts)
    (hnames : Encoded parts names)
    (hopen : (h.kernel d).fallbackOpenat dir parts path flags = .error (.os .noEntry)) :
    d.node (dir ++ names) = none := by
  have hup : py ".." ∉ parts := fun hmem => (hplain _ hmem).2 rfl
  unfold Kernel.fallbackOpenat at hopen
  split_ifs at hopen with hparts
  · subst hparts
    split at hopen
    · rename_i e hnode
      injection hopen with hopen
      injection hopen with hopen
      exact absurd (hopen ▸ hnode) Disk.openAt_here_ne
    · cases hopen
  · exact fallbackWalk_missing (fun c hc => (hplain c hc).1) hup hnames hopen

theorem matchingRoots_ne_os {e : Errno} {raw : PurePath} {roots : List PurePath} :
    matchingRoots path raw roots ≠ .error (.os e) := by
  induction roots with
  | nil =>
    intro heq
    cases heq
  | cons root roots ih =>
    intro heq
    unfold matchingRoots at heq
    split at heq
    · exact ih heq
    · split_ifs at heq
      · cases heq
      · cases hrest : matchingRoots path raw roots with
        | error e' =>
          rw [hrest] at heq
          exact ih (hrest.trans heq)
        | ok found =>
          rw [hrest] at heq
          cases heq

theorem relativeToRoot_ne_os {e : Errno} {roots : List PurePath} :
    relativeToRoot path roots ≠ .error (.os e) := by
  intro heq
  unfold relativeToRoot at heq
  dsimp only at heq
  split_ifs at heq
  · cases heq
  · cases heq
  · split at heq
    · rename_i e' hmatch
      obtain rfl := Except.error.inj heq
      exact matchingRoots_ne_os hmatch
    · cases heq
    · cases heq

theorem encoded_append {parts more : List PyStr} (hi : Encoded (parts ++ more) i) :
    ∃ names rest, Encoded parts names ∧ Encoded more rest ∧ i = names ++ rest := by
  have hparts := List.forall₂_take parts.length hi
  have hmore := List.forall₂_drop parts.length hi
  rw [List.take_left] at hparts
  rw [List.drop_left] at hmore
  exact ⟨_, _, hparts, hmore, (List.take_append_drop _ _).symm⟩

/-- Where nothing is found, nothing is. -/
theorem missing_located {dirFdOnly : Bool} (hroots : h.RealRoots d)
    (hopen : (h.kernel d).openSafeFd path h.roots dirFdOnly = .error (.os .noEntry))
    (hlocated : Located path i) : d.node i = none := by
  unfold Kernel.openSafeFd at hopen
  split_ifs at hopen
  · cases hopen
  · cases hrel : relativeToRoot path h.roots with
    | error e =>
      rw [hrel] at hopen
      obtain rfl := Except.error.inj hopen
      exact absurd hrel relativeToRoot_ne_os
    | ok found =>
      obtain ⟨root, parts⟩ := found
      have hrooted := rooted_of_relativeToRoot hrel
      obtain ⟨-, htail⟩ := PurePath.relativeTo_eq_some.mp hrooted.below
      have hencoded := hlocated.encoded
      rw [htail] at hencoded
      obtain ⟨rootNames, names, hrootNames, hnames, rfl⟩ := encoded_append hencoded
      rw [hrel] at hopen
      change (h.openRoot d root).bind _ = _ at hopen
      -- either the root itself is missing, or a component below it
      cases hroot : h.openRoot d root with
      | error e =>
        rw [hroot] at hopen
        obtain rfl := Except.error.inj hopen
        have hreal := hroots root hrooted.allowed
        have hleads := leads_encoded hreal.1 hrootNames (hreal.2 rootNames hrootNames)
        exact Disk.node_append_eq_none (h.openRoot_missing hroot hleads) names
      | ok rootFd =>
        rw [hroot] at hopen
        obtain rfl := encoded_unique hrootNames (hroots.opened hrooted.allowed hroot).1
        dsimp only [Except.bind] at hopen
        split at hopen
        · exact fallback_missing hrooted.plain hnames hopen
        · rename_i hother
          cases hcall : (h.kernel d).openat2Beneath rootNames parts path (finalFlags dirFdOnly) with
          | ok j =>
            rw [hcall] at hopen
            cases hopen
          | error e =>
            rw [hcall] at hopen
            exact absurd hcall (Except.error.inj hopen ▸ hother _)

/-- What `read_bytes_safe` has read or not found is no link. -/
theorem read_straight {missingOk : Bool} {data : Bytes} (hroots : h.RealRoots d)
    (hread : h.ReadsBytes d path missingOk (.ok data)) (hlocated : Located path (dir ++ [name])) :
    d.link? dir name = none := by
  rcases hread with ⟨i, hopen, -⟩ | ⟨-, -, hopen⟩
  · obtain ⟨hi, hstraight⟩ := opened_located hroots hopen
    exact hstraight dir name [] (hi.unique hlocated)
  · exact Disk.link?_of_missing (missing_located hroots hopen hlocated)

/-! ## The roots that are protected -/

/-- The object is a protected root or lies below one. -/
def Protected (i : List Bytes) : Prop :=
  ∃ root ∈ protectedRoots, [root.tail.map Fin.val] <+: i

/-- The object is Home Assistant's `.storage` directory or lies below it. -/
def Storage (i : List Bytes) : Prop :=
  [(py "config").map Fin.val, (py ".storage").map Fin.val] <+: i

/-- What has something protected below it is protected, but for the root of the disk. -/
theorem Protected.above (h : Protected (i ++ j)) (hi : i ≠ []) : Protected i := by
  obtain ⟨root, hroot, hbelow⟩ := h
  obtain ⟨name, more, rfl⟩ := List.exists_cons_of_ne_nil hi
  obtain ⟨rest, hrest⟩ := hbelow
  obtain ⟨rfl, -⟩ := List.cons.inj hrest
  exact ⟨root, hroot, more, rfl⟩

theorem protectedRoots_ascii : ∀ root ∈ protectedRoots, root = 47 :: root.tail ∧ Ascii root.tail := by
  have hall : protectedRoots.all fun root =>
      root == 47 :: root.tail && root.tail.all fun c => decide (c.val < 128) := by decide
  intro root hroot
  have hone := List.all_eq_true.mp hall root hroot
  rw [Bool.and_eq_true, beq_iff_eq] at hone
  exact ⟨hone.1, ascii_of_all hone.2⟩

theorem encoded_cons {parts : List PyStr} {text : PyStr} (htext : Ascii text)
    (hi : Encoded parts (text.map Fin.val :: i)) : ∃ rest, parts = text :: rest ∧ Encoded rest i := by
  cases hi with
  | cons hname hrest => exact ⟨_, by rw [eq_of_fsencode_ascii htext hname], hrest⟩

theorem joinWith_cons_cons (c c' : PyStr) (cs : List PyStr) :
    joinWith (py "/") (c :: c' :: cs) = c ++ py "/" ++ joinWith (py "/") (c' :: cs) := by
  rw [joinWith, List.intercalate_cons_cons, joinWith]

/-- The text of a real path tells that its object is protected. -/
theorem isProtected_of_encoded {p : PurePath} (hanchor : p.anchor = .root) (hi : Encoded p.tail i)
    (hprotected : Protected i) : isProtected p.str = true := by
  obtain ⟨root, hroot, rest, rfl⟩ := hprotected
  obtain ⟨hslash, hascii⟩ := protectedRoots_ascii root hroot
  obtain ⟨cs, htail, -⟩ := encoded_cons hascii hi
  have hstr : p.str = 47 :: joinWith (py "/") p.tail := by
    rw [PurePath.str, hanchor, if_neg fun hnil => by cases hnil.1]
    rfl
  apply List.any_eq_true.mpr
  refine ⟨root, hroot, ?_⟩
  rw [Bool.or_eq_true, decide_eq_true_eq]
  cases cs with
  | nil =>
    right
    rw [hstr, htail, hslash]
    simp [joinWith]
  | cons c cs =>
    left
    have hbelow : p.str = root ++ py "/" ++ joinWith (py "/") (c :: cs) := by
      rw [hstr, htail, joinWith_cons_cons, List.append_assoc, ← List.cons_append, ← hslash,
        List.append_assoc]
    apply List.isPrefixOf_iff_prefix.mpr
    split
    · rw [hbelow]
      exact List.prefix_append _ _
    · rw [hbelow, List.append_assoc (root ++ py "/")]
      exact List.prefix_append _ _

theorem Storage.protected (hi : Storage i) : Protected i := by
  obtain ⟨rest, rfl⟩ := hi
  exact ⟨py "/config", List.mem_cons_self, (py ".storage").map Fin.val :: rest, rfl⟩

/-- A temporary file in a protected root is below it. -/
theorem Protected.of_temporary {tmp : Bytes} (htmp : Host.Temporary tmp) (hi : Protected (dir ++ [tmp])) :
    Protected (dir ++ [name]) := by
  have hall : protectedRoots.all fun root =>
      !((py ".oc_write.").map Fin.val).isPrefixOf (root.tail.map Fin.val) := by decide
  have hdir : dir ≠ [] := by
    rintro rfl
    obtain ⟨root, hroot, rest, hrest⟩ := hi
    obtain ⟨rfl, -⟩ := List.cons.inj hrest
    have hnot := List.all_eq_true.mp hall root hroot
    rw [List.isPrefixOf_iff_prefix.mpr htmp] at hnot
    cases hnot
  obtain ⟨root, hroot, hbelow⟩ := hi.above hdir
  exact ⟨root, hroot, hbelow.trans (List.prefix_append _ _)⟩

theorem Storage.of_temporary {tmp : Bytes} (htmp : Host.Temporary tmp) (hi : Storage (dir ++ [tmp])) :
    Storage (dir ++ [name]) := by
  obtain ⟨rest, hrest⟩ := hi
  rcases List.eq_nil_or_concat' rest with rfl | ⟨init, last, rfl⟩
  · have hsplit : [(py "config").map Fin.val] ++ [(py ".storage").map Fin.val] = dir ++ [tmp] := hrest
    obtain ⟨-, hlast⟩ := List.append_inj' hsplit rfl
    obtain ⟨rfl, -⟩ := List.cons.inj hlast
    have hnot : ¬ (py ".oc_write.").map Fin.val <+: (py ".storage").map Fin.val := by decide
    exact absurd htmp hnot
  · rw [← List.append_assoc] at hrest
    obtain ⟨rfl, -⟩ := List.append_inj' hrest rfl
    exact ⟨init ++ [name], (List.append_assoc _ _ _).symm⟩

/-- The text of a path is that of its components. -/
def Spelled (path : PyStr) : Prop := path = 47 :: joinWith (py "/") (PurePath.parse path).tail

/-- So spelled, a path into `.storage` is seen. -/
theorem isStorage_of_located (hspelled : Spelled path) (hi : Located path i) (hstorage : Storage i) :
    isStorage path = true := by
  obtain ⟨rest, rfl⟩ := hstorage
  obtain ⟨parts, htail, hparts⟩ := encoded_cons (ascii_of_all (by decide)) hi.encoded
  obtain ⟨more, rfl, -⟩ := encoded_cons (ascii_of_all (by decide)) hparts
  rw [Spelled, htail] at hspelled
  unfold isStorage
  rw [Bool.or_eq_true]
  cases more with
  | nil =>
    right
    rw [hspelled]
    decide
  | cons c cs =>
    left
    rw [joinWith_cons_cons, joinWith_cons_cons] at hspelled
    rw [hasSubstr_iff, hspelled]
    exact ⟨[], joinWith (py "/") (c :: cs), rfl⟩

end HassNode.FsMutations
