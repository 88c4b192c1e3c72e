import HassNode.TurnAside

/-!
# What a turn makes of what it hears

The steps since the `chat.send` of a turn are its history.  `Hears` relates the texts, the queue and
the reply event that the relay keeps for the turn to the utterances heard in its history: the first
final one is what a stream shows, the last final one or the last one at all is what a relay turn
returns, and each was heard behind the acknowledgement of the turn's run.
-/

namespace HassNode.ChatRelay

open Py

/-! ## Histories -/

/-- A step of the past: the relay before it, and its label. -/
abbrev Past := Relay × Label

section
variable [Runtime]

/-- The utterance that is heard for a session. -/
def heard? (key : PyStr) : Past → Option Utterance
  | (r, .event msg) => (utterance? msg).filter fun u => u.session = key && r.hears u
  | _ => none

def heardIn (key : PyStr) (history : List Past) : List Utterance := history.filterMap (heard? key)

/-- The final utterances that were heard. -/
def finalsIn (key : PyStr) (history : List Past) : List Utterance :=
  (heardIn key history).filter (·.terminal)

/-- The run that the acknowledgement of a request names. -/
def named? (req : PyStr) : Past → Option PyStr
  | (_, .response msg) =>
    if Dict.get? msg (py "id") = some (.str req) ∧ truthy (Dict.getD msg (py "ok") .null) = true then
      some (Relay.runIdOf ((firstTruthy msg ["payload"]).getD (.dict [])))
    else none
  | _ => none

/-- The run was acknowledged in the history. -/
def Names (req run : PyStr) (history : List Past) : Prop := ∃ p ∈ history, named? req p = some run

/-- The utterance is of the run.  A session message may come without a run id, on a stream only once
the run has shown itself. -/
def Belongs (stream : Bool) (key run : PyStr) (before : List Past) (u : Utterance) : Prop :=
  u.runId = run ∨ (u.runId = [] ∧ u.sessionMessage = true ∧
    (stream = true → ∃ v ∈ heardIn key before, v.runId = run))

/-- What is heard comes behind an acknowledgement, and is of the run that it names. -/
def Sound (stream : Bool) (key req : PyStr) (history : List Past) : Prop :=
  ∀ before p after u, history = before ++ p :: after → heard? key p = some u →
    ∃ run, Names req run before ∧ (run ≠ [] → Belongs stream key run before u)

section
variable {stream : Bool} {key req run : PyStr} {history : List Past} {p : Past} {u : Utterance}

theorem heardIn_concat (key : PyStr) (history : List Past) (p : Past) :
    heardIn key (history ++ [p]) = heardIn key history ++ (heard? key p).toList := by
  unfold heardIn
  rw [List.filterMap_append]
  cases hp : heard? key p <;> simp [hp]

theorem finalsIn_concat (key : PyStr) (history : List Past) (p : Past) :
    finalsIn key (history ++ [p]) =
      finalsIn key history ++ (heard? key p).toList.filter (·.terminal) := by
  unfold finalsIn
  rw [heardIn_concat, List.filter_append]

theorem heardIn_silent (hp : heard? key p = none) :
    heardIn key (history ++ [p]) = heardIn key history := by
  rw [heardIn_concat, hp]
  exact List.append_nil _

theorem finalsIn_silent (hp : heard? key p = none) :
    finalsIn key (history ++ [p]) = finalsIn key history :=
  congrArg (List.filter _) (heardIn_silent hp)

theorem names_concat : Names req run (history ++ [p]) ↔ Names req run history ∨ named? req p = some run := by
  unfold Names
  simp only [List.mem_append, List.mem_singleton, or_and_right, exists_or, exists_eq_left]

theorem Names.concat (h : Names req run history) (p : Past) : Names req run (history ++ [p]) :=
  names_concat.mpr (.inl h)

theorem Sound.concat (h : Sound stream key req history)
    (hp : ∀ u, heard? key p = some u →
      ∃ run, Names req run history ∧ (run ≠ [] → Belongs stream key run history u)) :
    Sound stream key req (history ++ [p]) := by
  intro before q after u hsplit hq
  rcases List.eq_nil_or_concat after with rfl | ⟨left, last, rfl⟩
  · obtain ⟨rfl, hlast⟩ := List.append_inj' hsplit rfl
    rw [List.cons.injEq] at hlast
    exact hp u (hlast.1 ▸ hq)
  · have hsplit' : history ++ [p] = (before ++ q :: left) ++ [last] := by simp [hsplit]
    obtain ⟨hhistory, -⟩ := List.append_inj' hsplit' rfl
    exact h before q left u hhistory hq

end

end

/-! ## Replies on the way -/

def Post.reply? : Post → Option PyStr
  | .reply text => some text
  | _ => none

/-- The replies among the posts of a stream. -/
def repliesOf (posts : List Post) : List PyStr := posts.filterMap Post.reply?

/-- The replies among the lines that a stream has shown. -/
def repliesIn (lines : List Line) : List Take :=
  lines.filterMap fun
    | .reply take => some take
    | .status _ => none

theorem repliesIn_append (lines more : List Line) :
    repliesIn (lines ++ more) = repliesIn lines ++ repliesIn more :=
  List.filterMap_append

/-- Items that end nothing are posts other than replies. -/
theorem posts_of_open {items : List Chunk} (h : Chunk.close ∉ items) :
    ∃ posts, chunksOf posts = items ∧ repliesOf posts = [] := by
  induction items with
  | nil => exact ⟨[], rfl, rfl⟩
  | cons item items ih =>
    rw [List.mem_cons, not_or] at h
    obtain ⟨posts, rfl, hreplies⟩ := ih h.2
    cases item with
    | text s => exact ⟨.line s :: posts, rfl, hreplies⟩
    | close => exact absurd rfl h.1
    | error e => exact ⟨.error e :: posts, rfl, hreplies⟩
    | frame f => exact ⟨.frame f :: posts, rfl, hreplies⟩

theorem repliesOf_ne_nil {posts : List Post} (h : Chunk.close ∈ chunksOf posts) :
    repliesOf posts ≠ [] := by
  obtain ⟨post, hpost, hclose⟩ := List.mem_flatMap.mp h
  cases post with
  | reply text =>
    intro hnone
    have hmem : text ∈ repliesOf posts := List.mem_filterMap.mpr ⟨_, hpost, rfl⟩
    rw [hnone] at hmem
    cases hmem
  | _ => simp [Post.chunks] at hclose

/-- A reply as the stream hands it over: behind a status line it may start on a new line. -/
def Take.Carries (take : Take) (text : PyStr) : Prop :=
  take.item = text ∧ (take.out = text ∨ take.out = 10 :: text)

/-- The stream has handed something over and waits to be asked for more. -/
def Await.Hands : Await → Prop
  | .yield .. => True
  | _ => False

/-- The lines that a stream has shown and the items of its queue, when the given replies were sent to
it.  Behind the first reply the stream ends. -/
inductive Shows (texts : List PyStr) (lines : List Line) (items : List Chunk) (a : Await) : Prop where
  | waiting (posts : List Post) (unreplied : repliesIn lines = []) (waits : items = chunksOf posts)
      (replies : repliesOf posts = texts)
  | replied (before : List Line) (take : Take) (posts : List Post) (text : PyStr)
      (unreplied : repliesIn before = []) (last : lines = before ++ [.reply take])
      (carries : take.Carries text) (waits : items = .close :: chunksOf posts)
      (replies : text :: repliesOf posts = texts) (hands : a.Hands)

section
variable {texts : List PyStr} {lines : List Line} {items : List Chunk} {a : Await}

theorem Shows.more (h : Shows texts lines items a) (more : List Post) :
    Shows (texts ++ repliesOf more) lines (items ++ chunksOf more) a := by
  have hchunks : ∀ posts, chunksOf posts ++ chunksOf more = chunksOf (posts ++ more) :=
    fun posts => List.flatMap_append.symm
  have hreplies : ∀ posts, repliesOf (posts ++ more) = repliesOf posts ++ repliesOf more :=
    fun posts => List.filterMap_append
  cases h with
  | waiting posts unreplied waits replies =>
    refine .waiting (posts ++ more) unreplied ?_ ?_
    · rw [waits, hchunks]
    · rw [hreplies, replies]
  | replied before take posts text unreplied last carries waits replies hands =>
    refine .replied before take (posts ++ more) text unreplied last carries ?_ ?_ hands
    · rw [waits, List.cons_append, hchunks]
    · rw [hreplies, ← List.cons_append, replies]

/-- Items that end nothing bring no reply. -/
theorem Shows.open (h : Shows texts lines items a) {more : List Chunk} (hmore : Chunk.close ∉ more) :
    Shows texts lines (items ++ more) a := by
  obtain ⟨posts, rfl, hreplies⟩ := posts_of_open hmore
  have hposts := h.more posts
  rwa [hreplies, List.append_nil] at hposts

theorem Shows.final (h : Shows texts lines items a) (hclose : Chunk.close ∈ items) :
    texts ≠ [] := by
  cases h with
  | waiting posts unreplied waits replies =>
    rw [← replies]
    exact repliesOf_ne_nil (waits ▸ hclose)
  | replied before take posts text unreplied last carries waits replies hands =>
    rw [← replies]
    exact List.cons_ne_nil _ _

/-- A stream shows no reply but the first that was sent to it, and nothing behind it. -/
theorem Shows.first (h : Shows texts lines items a) : repliesIn lines = [] ∨
    ∃ before take text, lines = before ++ [.reply take] ∧ repliesIn before = [] ∧
      texts.head? = some text ∧ take.Carries text := by
  cases h with
  | waiting posts unreplied waits replies => exact .inl unreplied
  | replied before take posts text unreplied last carries waits replies hands =>
    exact .inr ⟨before, take, text, last, unreplied, by rw [← replies]; rfl, carries⟩

end

/-! ## Pieces of a stream -/

namespace Relay

section
variable {r r' : Relay} {key : PyStr} {q : Nat} {t : Turn} {texts : List PyStr} {lines : List Line}
  {posts : List Post}

theorem separated_carries (r : Relay) (key item : PyStr) :
    r.separated key item = item ∨ r.separated key item = 10 :: item := by
  unfold separated
  split
  · exact .inr rfl
  · exact .inl rfl

/-- The stream hands over a text from the front of its queue. -/
theorem shows_text {before : Await} {next item out : PyStr} {expired : Bool} {loop : Loop}
    (hunreplied : repliesIn lines = []) (hposts : r.queues q = chunksOf posts)
    (hreplies : repliesOf posts = texts) (hitems : r.queues q = .text item :: r'.queues q)
    (hout : out = item ∨ out = 10 :: item) :
    Shows texts (lines ++ r.lineOf q before (.ready next expired) (.yield key q loop (.text out)))
      (r'.queues q) (.yield key q loop (.text out)) := by
  obtain ⟨post, left, rfl, hchunks⟩ := chunksOf_cons (hposts.symm.trans hitems)
  cases post with
  | line text =>
    obtain ⟨htext, hrest⟩ := List.cons.inj hchunks
    rw [lineOf_line (hitems.trans (by rw [hrest]; rfl))]
    refine .waiting left ?_ hrest hreplies
    rw [repliesIn_append, hunreplied]
    rfl
  | reply text =>
    obtain ⟨htext, hrest⟩ := List.cons.inj hchunks
    obtain rfl := Chunk.text.inj htext
    -- the end of the queue behind the text tells that it is the reply
    have hline : r.lineOf q before (.ready next expired) (.yield key q loop (.text out)) =
        [.reply ⟨r.woken before, item, chunksOf left, before.drains (.ready next expired), out⟩] := by
      have hall : r.queues q = .text item :: .close :: chunksOf left := by
        rw [hitems, hrest]
        rfl
      unfold lineOf
      rw [hall]
    rw [hline]
    exact .replied lines _ left item hunreplied rfl ⟨rfl, hout⟩ hrest hreplies trivial
  | frame f => cases (List.cons.inj hchunks).1
  | error e => cases (List.cons.inj hchunks).1

variable [Runtime] [CaseMap] {a a' : Await} {signal : Signal}

/-- A stream that is asked for more behind its reply ends. -/
theorem closed_not_resumed {rest : List Chunk} (hclose : r.queues q = .close :: rest)
    (hstreams : a.Streams key q) (hands : a.Hands) : r.resume t a signal ≠ some (r', .at a') := by
  cases a with
  | yield canonical consumer loop output =>
    obtain ⟨rfl, rfl⟩ := hstreams
    cases signal with
    | ready next expired =>
      rw [resume, loopTop, yielded_queues, hclose]
      simp [takeItem]
    | _ => simp [resume]
  | _ => exact hands.elim

/-- A piece of a stream that ends at another suspension. -/
theorem resume_shows (hstream : t.stream = true) (hstreams : a.Streams key q)
    (h : Shows texts lines (r.queues q) a) (piece : r.resume t a signal = some (r', .at a')) :
    Shows texts (lines ++ r.lineOf q a signal a') (r'.queues q) a' := by
  cases h with
  | waiting posts unreplied waits replies =>
    obtain ⟨-, ⟨⟨next, expired, rfl⟩, htaken⟩ | ⟨⟨expired, rfl⟩, hitems, hkept⟩⟩ :=
      resume_serves hstream hstreams piece
    · have hqueues : (r.woken a).queues q = r.queues q := congrFun (r.woken_queues a) q
      cases htaken with
      | waits items text =>
        rw [items, hqueues, show r.lineOf q a _ _ = [] from rfl, List.append_nil]
        exact .waiting posts unreplied waits replies
      | frame items text =>
        rw [show r.lineOf q a _ _ = [] from rfl, List.append_nil]
        rw [hqueues] at items
        obtain ⟨post, left, rfl, hchunks⟩ := chunksOf_cons (waits.symm.trans items)
        cases post with
        | frame f' => exact .waiting left unreplied (List.cons.inj hchunks).2 replies
        | line text' => cases (List.cons.inj hchunks).1
        | reply text' => cases (List.cons.inj hchunks).1
        | error e => cases (List.cons.inj hchunks).1
      | drained past items text =>
        exact shows_text unreplied waits replies (hqueues.symm.trans items) (.inl rfl)
      | text timely items text =>
        exact shows_text unreplied waits replies (hqueues.symm.trans items)
          (separated_carries _ key _)
    · rw [hitems]
      refine .waiting posts ?_ waits replies
      rw [repliesIn_append, unreplied]
      cases hkept with
      | progress text => rfl
      | silent text => rfl
  | replied before take posts text unreplied last carries waits replies hands =>
    exact absurd piece (closed_not_resumed waits hstreams hands)

end

end Relay

end HassNode.ChatRelay
