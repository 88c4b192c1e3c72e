import Mathlib.Data.List.Forall2
import Mathlib.Data.List.TakeWhile

/-!
# Unambiguous printers

Two printed texts `p` and `q` *agree* on `R` when a text that starts with both, each followed by
something that may follow a token, forces `R` and leaves the same rest.  A printer whose outputs
agree on equality can be read back; the rules below build such printers from symbols, prefix-free
codes, sequences and separated lists.
-/

namespace Printer

variable {τ α β : Type}

/-- A token may end before `s`: the text is over or goes on with a symbol of `D`. -/
def EndsAt (D : τ → Prop) (s : List τ) : Prop := ∀ c ∈ s.head?, D c

def Agree (D : τ → Prop) (R : Prop) (p q : List τ) : Prop :=
  ∀ s t, EndsAt D s → EndsAt D t → p ++ s = q ++ t → R ∧ s = t

theorem endsAt_nil (D : τ → Prop) : EndsAt D [] := by
  intro c hc
  cases hc

theorem endsAt_cons {D : τ → Prop} {c : τ} {s : List τ} (hc : D c) : EndsAt D (c :: s) := by
  intro c' hc'
  rw [List.head?_cons, Option.mem_some_iff] at hc'
  exact hc' ▸ hc

theorem EndsAt.mono {D E : τ → Prop} (h : ∀ c, D c → E c) {s : List τ} (hs : EndsAt D s) :
    EndsAt E s := fun c hc => h c (hs c hc)

namespace Agree

variable {D E : τ → Prop} {R R' : Prop} {p p' q q' : List τ}

/-- Texts that agree are readings of the same value when they are equal. -/
theorem of_eq (h : Agree D R p q) (heq : p = q) : R := by
  subst heq
  exact (h [] [] (endsAt_nil D) (endsAt_nil D) rfl).1

theorem imp (h : Agree D R p q) (hR : R → R') : Agree D R' p q := by
  intro s t hs ht heq
  have hst := h s t hs ht heq
  exact ⟨hR hst.1, hst.2⟩

theorem mono (hD : ∀ c, E c → D c) (h : Agree D R p q) : Agree E R p q := by
  intro s t hs ht heq
  exact h s t (hs.mono hD) (ht.mono hD) heq

/-- Texts with different first symbols never start the same text. -/
theorem of_head_ne {a b : τ} (hab : a ≠ b) : Agree D R (a :: p) (b :: q) := by
  intro s t _ _ heq
  rw [List.cons_append, List.cons_append, List.cons.injEq] at heq
  exact absurd heq.1 hab

theorem refl (p : List τ) : Agree D True p p := by
  intro s t _ _ heq
  exact ⟨trivial, List.append_cancel_left heq⟩

/-- Sequencing: what follows the first part must be able to follow a token. -/
theorem append (h : Agree E R p p') (hE : ∀ s, EndsAt D s → EndsAt E (q ++ s))
    (hE' : ∀ s, EndsAt D s → EndsAt E (q' ++ s)) (h' : Agree D R' q q') :
    Agree D (R ∧ R') (p ++ q) (p' ++ q') := by
  intro s t hs ht heq
  rw [List.append_assoc, List.append_assoc] at heq
  have hfirst := h (q ++ s) (q' ++ t) (hE s hs) (hE' t ht) heq
  have hsecond := h' s t hs ht hfirst.2
  exact ⟨⟨hfirst.1, hsecond.1⟩, hsecond.2⟩

theorem cons (c : τ) (h : Agree D R p q) : Agree D R (c :: p) (c :: q) := by
  intro s t hs ht heq
  rw [List.cons_append, List.cons_append, List.cons.injEq] at heq
  exact h s t hs ht heq.2

end Agree

/-! ## Runs of symbols -/

/-- A run of symbols of `P` ends where a symbol outside `P` follows. -/
theorem agree_run {P : τ → Bool} {p q : List τ} (hp : ∀ c ∈ p, P c = true)
    (hq : ∀ c ∈ q, P c = true) : Agree (fun c => P c = false) (p = q) p q := by
  intro s t hs ht heq
  have htake : ∀ {r u : List τ}, (∀ c ∈ r, P c = true) → EndsAt (fun c => P c = false) u →
      (r ++ u).takeWhile P = r := by
    intro r u hr hu
    rw [List.takeWhile_append_of_pos hr]
    cases u with
    | nil => rw [List.takeWhile_nil, List.append_nil]
    | cons c u =>
      have hc : P c = false := hu c rfl
      rw [List.takeWhile_cons_of_neg (by simp [hc]), List.append_nil]
  have hpq : p = q := by rw [← htake hp hs, heq, htake hq ht]
  subst hpq
  exact ⟨rfl, List.append_cancel_left heq⟩

/-! ## Prefix-free codes -/

/-- No code word is the start of another one's text. -/
def PrefixFree (f : α → List τ) : Prop := ∀ a b s t, f a ++ s = f b ++ t → a = b ∧ s = t

/-- A sequence of code words closed by a symbol that starts none of them. -/
theorem agree_codes {f : α → List τ} {close : τ} (hf : PrefixFree f)
    (hclose : ∀ a s t, f a ++ s ≠ close :: t) (D : τ → Prop) (as bs : List α) :
    Agree D (as = bs) (as.flatMap f ++ [close]) (bs.flatMap f ++ [close]) := by
  intro s t _ _
  induction as generalizing bs with
  | nil =>
    cases bs with
    | nil => intro heq; exact ⟨rfl, by simpa using heq⟩
    | cons b bs =>
      intro heq
      exfalso
      refine hclose b (bs.flatMap f ++ [close] ++ t) s ?_
      simpa using heq.symm
  | cons a as ih =>
    cases bs with
    | nil =>
      intro heq
      exfalso
      refine hclose a (as.flatMap f ++ [close] ++ s) t ?_
      simpa using heq
    | cons b bs =>
      intro heq
      have hab := hf a b (as.flatMap f ++ [close] ++ s) (bs.flatMap f ++ [close] ++ t)
        (by simpa using heq)
      have hrest := ih bs hab.2
      exact ⟨by rw [hab.1, hrest.1], hrest.2⟩

/-! ## Separated lists -/

/-- The part of a separated list after its first item. -/
def sepTail (sep : τ) (close : τ) (f : α → List τ) (as : List α) : List τ :=
  as.flatMap (fun a => sep :: f a) ++ [close]

theorem sepTail_cons (sep close : τ) (f : α → List τ) (a : α) (as : List α) :
    sepTail sep close f (a :: as) = sep :: (f a ++ sepTail sep close f as) := by
  simp [sepTail]

theorem intercalate_cons (sep close : τ) (f : α → List τ) (a : α) (as : List α) :
    [sep].intercalate ((a :: as).map f) ++ [close] = f a ++ sepTail sep close f as := by
  induction as generalizing a with
  | nil => simp [sepTail, List.intercalate]
  | cons b as ih =>
    have hstep : [sep].intercalate ((a :: b :: as).map f) =
        f a ++ (sep :: [sep].intercalate ((b :: as).map f)) := by
      simp [List.intercalate, List.flatten]
    rw [hstep, List.append_assoc, List.cons_append, ih b, sepTail_cons]

section SepBy

variable {sep close : τ} {f : α → List τ} {g : β → List τ} {R : α → β → Prop} {E : τ → Prop}

theorem endsAt_sepTail (hsep : E sep) (hclose : E close) (as : List α) (s : List τ) :
    EndsAt E (sepTail sep close f as ++ s) := by
  cases as with
  | nil => exact endsAt_cons hclose
  | cons a as => exact endsAt_cons hsep

theorem agree_sepTail (hne : sep ≠ close) (hsep : E sep) (hclose : E close) (D : τ → Prop)
    (as : List α) (bs : List β) (h : ∀ a ∈ as, ∀ b ∈ bs, Agree E (R a b) (f a) (g b)) :
    Agree D (List.Forall₂ R as bs) (sepTail sep close f as) (sepTail sep close g bs) := by
  induction as generalizing bs with
  | nil =>
    cases bs with
    | nil => exact (Agree.refl _).imp fun _ => .nil
    | cons b bs => exact Agree.of_head_ne hne.symm
  | cons a as ih =>
    cases bs with
    | nil => exact Agree.of_head_ne hne
    | cons b bs =>
      have htail := ih bs fun a' ha b' hb => h a' (.tail _ ha) b' (.tail _ hb)
      have hitem := (h a (.head _) b (.head _)).append (D := D)
        (fun s _ => endsAt_sepTail hsep hclose as s) (fun s _ => endsAt_sepTail hsep hclose bs s)
        htail
      rw [sepTail_cons, sepTail_cons]
      exact (hitem.cons sep).imp fun hR => .cons hR.1 hR.2

/-- Items joined by `sep` and closed by `close` agree when the items agree pairwise and none of
them starts with `close`. -/
theorem agree_sepBy (hne : sep ≠ close) (hsep : E sep) (hclose : E close) (D : τ → Prop)
    (as : List α) (bs : List β) (h : ∀ a ∈ as, ∀ b ∈ bs, Agree E (R a b) (f a) (g b))
    (hf : ∀ a ∈ as, ∃ c rest, f a = c :: rest ∧ c ≠ close)
    (hg : ∀ b ∈ bs, ∃ c rest, g b = c :: rest ∧ c ≠ close) :
    Agree D (List.Forall₂ R as bs) ([sep].intercalate (as.map f) ++ [close])
      ([sep].intercalate (bs.map g) ++ [close]) := by
  cases as with
  | nil =>
    cases bs with
    | nil => exact (Agree.refl _).imp fun _ => .nil
    | cons b bs =>
      obtain ⟨c, rest, hb, hc⟩ := hg b (.head _)
      rw [intercalate_cons, hb]
      exact Agree.of_head_ne hc.symm
  | cons a as =>
    cases bs with
    | nil =>
      obtain ⟨c, rest, ha, hc⟩ := hf a (.head _)
      rw [intercalate_cons, ha]
      exact Agree.of_head_ne hc
    | cons b bs =>
      rw [intercalate_cons, intercalate_cons]
      have htail := agree_sepTail hne hsep hclose D as bs
        fun a' ha b' hb => h a' (.tail _ ha) b' (.tail _ hb)
      have hall := (h a (.head _) b (.head _)).append (D := D)
        (fun s _ => endsAt_sepTail hsep hclose as s) (fun s _ => endsAt_sepTail hsep hclose bs s)
        htail
      exact hall.imp fun hR => .cons hR.1 hR.2

end SepBy

end Printer
