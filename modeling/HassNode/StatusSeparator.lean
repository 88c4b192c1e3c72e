import HassNode.StatusLines

/-!
# The line that a streamed reply starts on

A plain-text stream shows status lines and then the reply, all on one channel.  The stream loop tells
them apart by their shape and remembers in `_text_status_open` whether a status line was posted, which
need not be one that was shown.  `separator_iff` says which replies come out right all the same.
-/

namespace HassNode.ChatRelay

open Py

/-! ## Lines -/

/-- The turn goes on behind its deadline, where it only drains its queue. -/
def Await.drains : Await → Signal → Bool
  | .send _ _ _ _, .ready _ expired => expired
  | .queue _ _ loop, _ => loop.expired
  | .yield _ _ loop _, .ready _ expired => loop.expired || expired
  | _, _ => false

/-- The progress line is shown, and the loop has not come back to record it. -/
def Await.progresses : Await → Bool
  | .yield _ _ _ (.progress _) => true
  | _ => false

/-- The relay that the loop goes on with. -/
def Relay.woken (r : Relay) : Await → Relay
  | .yield canonical _ _ output => r.yielded canonical output
  | _ => r

@[simp] theorem Relay.woken_queues (r : Relay) (a : Await) : (r.woken a).queues = r.queues := by
  cases a with
  | yield canonical consumer loop output => exact yielded_queues r canonical output
  | _ => rfl

@[simp] theorem Relay.woken_deltaQueues (r : Relay) (a : Await) :
    (r.woken a).deltaQueues = r.deltaQueues := by
  cases a with
  | yield canonical consumer loop output =>
    exact congrArg Registry.deltaQueues (yielded_toRegistry r canonical output)
  | _ => rfl

/-- A reply that is handed to the consumer as `out`, with the relay and the queue that it was taken
from. -/
structure Take where
  relay : Relay
  item : PyStr
  behind : List Chunk
  expired : Bool
  out : PyStr

/-- A line on the screen of the consumer. -/
inductive Line where
  | status (text : PyStr)
  | reply (take : Take)

/-- The line that a piece of the stream shows.  The reply is the text right before the end of the
queue; every other text is one that the relay wrote. -/
def Relay.lineOf (r : Relay) (q : Nat) (a : Await) (signal : Signal) : Await → List Line
  | .yield _ _ _ (.text out) =>
    match signal, r.queues q with
    | .ready _ _, .text item :: .close :: behind =>
      [.reply ⟨r.woken a, item, behind, a.drains signal, out⟩]
    | _, _ => [.status out]
  | .yield _ _ _ (.progress out) => [.status out]
  | _ => []

namespace Take

/-- Behind a status line the reply starts on a new line, and else it is what the gateway sent. -/
def Lawful (take : Take) (before : List Line) : Prop :=
  match before.getLast? with
  | some (.status text) => (take.out = take.item ∨ take.out = 10 :: take.item) ∧
      (startsWith take.out [10] = true ∨ text.getLast? = some 10)
  | _ => take.out = take.item

/-- The loop gets the reply right: it starts on a new line itself, or it follows a status line that is
known to be there and does not look like one, or nothing tells the loop of a status line. -/
def Fits (take : Take) (key : PyStr) (q : Nat) (before : List Line) : Prop :=
  startsWith take.item [10] = true ∨
    match before.getLast? with
    | some (.status text) => text.getLast? = some 10 ∨
        (take.expired = false ∧ isPlainTextStatusChunk take.item = false ∧
          (take.relay.deltaQueues.lookup key = some q ∨
            take.relay.textStatusOpen.getD key false = true))
    | _ => take.expired = true ∨ isPlainTextStatusChunk take.item = true ∨
        take.relay.deltaQueues.lookup key = none ∨ statusWaits take.behind = false

end Take

/-! ## The stream loop -/

namespace Relay

/-- The stream takes what is at the front of its queue. -/
inductive Taken (key : PyStr) (q : Nat) (r : Relay) (expired : Bool) (r' : Relay) : Await → Prop where
  | waits {loop : Loop} (items : r'.queues q = r.queues q)
      (text : r'.textState key = r.textState key) : Taken key q r expired r' (.queue key q loop)
  | frame {loop : Loop} {f : ToolProgressFrame} (items : r.queues q = .frame f :: r'.queues q)
      (text : r'.textState key = r.textState key) :
      Taken key q r expired r' (.yield key q loop (.frame f))
  | drained {loop : Loop} {item : PyStr} (past : expired = true)
      (items : r.queues q = .text item :: r'.queues q)
      (text : r'.textState key = r.textState key) :
      Taken key q r expired r' (.yield key q loop (.text item))
  | text {loop : Loop} {item : PyStr} (timely : expired = false)
      (items : r.queues q = .text item :: r'.queues q)
      (text : r'.textState key =
        { r.textState key with statusOpen := isPlainTextStatusChunk item }) :
      Taken key q r expired r' (.yield key q loop (.text (r.separated key item)))

/-- The stream shows that the turn goes on. -/
inductive KeptAlive (key : PyStr) (q : Nat) (r r' : Relay) : Await → Prop where
  | progress {loop : Loop} {line : PyStr} (text : r'.textState key = r.textState key) :
      KeptAlive key q r r' (.yield key q loop (.progress line))
  | silent {loop : Loop} (text : r'.textState key = r.textState key) :
      KeptAlive key q r r' (.yield key q loop .keepalive)

section
variable {r r' : Relay} {key : PyStr} {q : Nat} {t : Turn} {loop : Loop} {a : Await}

theorem takeItem_taken {item : Chunk} {rest : List Chunk} (hqueue : r.queues q = item :: rest)
    (h : { r with queues := Function.update r.queues q rest }.takeItem key q loop item =
      (r', .at a)) : r'.deltaQueues = r.deltaQueues ∧ Taken key q r loop.expired r' a := by
  have hitems : ∀ r' : Relay, r'.queues = Function.update r.queues q rest →
      r.queues q = item :: r'.queues q := by
    intro r' hqueues
    rw [hqueue, hqueues, Function.update_self]
  cases item with
  | close => cases h
  | error e => cases h
  | frame f =>
    cases h
    exact ⟨rfl, .frame (hitems _ rfl) rfl⟩
  | text item =>
    unfold takeItem at h
    dsimp only at h
    split at h
    · rename_i hexpired
      cases h
      exact ⟨rfl, .drained hexpired (hitems _ rfl) rfl⟩
    · rename_i hexpired
      cases h
      refine ⟨rfl, .text (Bool.eq_false_iff.mpr hexpired) (hitems _ rfl) ?_⟩
      simp [textState, OrderedDict.getD]

theorem loopTop_taken (h : r.loopTop key q loop = (r', .at a)) :
    r'.deltaQueues = r.deltaQueues ∧ Taken key q r loop.expired r' a := by
  unfold loopTop at h
  split at h
  · rename_i item rest hqueue
    exact takeItem_taken hqueue h
  · split at h
    · cases h
    · cases h
      exact ⟨rfl, .waits rfl rfl⟩

theorem keepalive_keptAlive (h : r.keepalive t key q loop = (r', .at a)) :
    r'.deltaQueues = r.deltaQueues ∧ r'.queues = r.queues ∧ KeptAlive key q r r' a := by
  unfold keepalive at h
  split at h
  · cases h
    exact ⟨rfl, rfl, .progress rfl⟩
  · cases h
    exact ⟨rfl, rfl, .silent rfl⟩

/-- A piece of a stream that ends at another suspension: with an item or, in a silent gap, without. -/
theorem resume_serves [Runtime] [CaseMap] {before : Await} {signal : Signal}
    (hstream : t.stream = true) (hbefore : before.Streams key q)
    (h : r.resume t before signal = some (r', .at a)) : r'.deltaQueues = r.deltaQueues ∧
      ((∃ next expired, signal = .ready next expired) ∧
          Taken key q (r.woken before) (before.drains signal) r' a ∨
        (∃ expired, signal = .timeout expired) ∧ r'.queues = r.queues ∧ KeptAlive key q r r' a) := by
  cases before with
  | send canonical consumer req future =>
    obtain ⟨hkey, hq⟩ := hbefore
    subst hkey hq
    cases signal with
    | ready next expired =>
      rw [resume] at h
      split at h
      · cases h
      · unfold acknowledged at h
        rw [if_pos hstream] at h
        obtain ⟨hqueues, htaken⟩ := loopTop_taken (Option.some.inj h)
        refine ⟨hqueues, .inl ⟨⟨next, expired, rfl⟩, ?_⟩⟩
        -- the acknowledgement does not touch the stream
        cases htaken with
        | waits items text => exact .waits items text
        | frame items text => exact .frame items text
        | drained past items text => exact .drained past items text
        | text timely items text => exact .text timely items text
      · cases h
    | _ => cases h
  | queue canonical consumer loop =>
    obtain ⟨hkey, hq⟩ := hbefore
    subst hkey hq
    cases signal with
    | ready next expired =>
      rw [resume] at h
      split at h
      · cases h
      · rename_i item rest hqueue
        obtain ⟨hqueues, htaken⟩ := takeItem_taken hqueue (Option.some.inj h)
        exact ⟨hqueues, .inl ⟨⟨next, expired, rfl⟩, htaken⟩⟩
    | timeout expired =>
      rw [resume] at h
      split at h
      · cases h
      · obtain ⟨hqueues, hkept⟩ := keepalive_keptAlive (Option.some.inj h)
        exact ⟨hqueues, .inr ⟨⟨expired, rfl⟩, hkept⟩⟩
    | _ => cases h
  | yield canonical consumer loop output =>
    obtain ⟨hkey, hq⟩ := hbefore
    subst hkey hq
    cases signal with
    | ready next expired =>
      rw [resume] at h
      obtain ⟨hqueues, htaken⟩ := loopTop_taken (Option.some.inj h)
      rw [yielded_toRegistry] at hqueues
      exact ⟨hqueues, .inl ⟨⟨next, expired, rfl⟩, htaken⟩⟩
    | _ => cases h
  | _ => cases hbefore

end

end Relay

/-! ## One reply -/

/-- What is known of a stream when its reply is taken. -/
structure Take.Sound (take : Take) (key : PyStr) (q : Nat) (before : List Line) : Prop where
  item : take.item ≠ []
  out : take.out = if take.expired then take.item else take.relay.separated key take.item
  statuses : ∀ line ∈ before, ∃ text, line = .status text
  queue : take.relay.deltaQueues.lookup key = some q ∨ take.relay.deltaQueues.lookup key = none
  opened : take.relay.deltaQueues.lookup key = some q →
    (before ≠ [] ∨ statusWaits take.behind = true) →
      take.relay.textStatusOpen.getD key false = true
  shown : take.relay.textStatusOpen.getD key false = true →
    before ≠ [] ∨ take.relay.deltaQueues.lookup key = some q ∧ statusWaits take.behind = true

section
variable {take : Take} {key : PyStr} {q : Nat} {before : List Line}

theorem startsWith_newline (s : PyStr) : startsWith (10 :: s) [10] = true := by
  simp [startsWith]

/-- A separator comes before a reply in time, when the stream is open and the reply looks like none of
the relay's lines. -/
theorem Take.Sound.out_eq (h : take.Sound key q before)
    (hline : startsWith take.item [10] = false) : take.out =
      if take.expired = false ∧ take.relay.textStatusOpen.getD key false = true ∧
        isPlainTextStatusChunk take.item = false then 10 :: take.item else take.item := by
  rw [h.out]
  unfold Relay.separated
  cases take.expired with
  | true => simp
  | false => simp [h.item, hline]

theorem Take.Sound.lawful_iff (h : take.Sound key q before) :
    take.Lawful before ↔ take.Fits key q before := by
  by_cases hline : startsWith take.item [10] = true
  · have hout : take.out = take.item := by
      rw [h.out]
      unfold Relay.separated
      simp [hline]
    refine iff_of_true ?_ (.inl hline)
    unfold Take.Lawful
    split
    · rw [hout]
      exact ⟨.inl rfl, .inl hline⟩
    · exact hout
  · have hout := h.out_eq (Bool.eq_false_iff.mpr hline)
    have hne : ¬ 10 :: take.item = take.item := by simp
    unfold Take.Lawful Take.Fits
    rw [or_iff_right hline]
    cases hlast : before.getLast? with
    | none =>
      have hnone : before = [] := List.getLast?_eq_none_iff.mp hlast
      have hopen : take.relay.textStatusOpen.getD key false = true ↔
          take.relay.deltaQueues.lookup key = some q ∧ statusWaits take.behind = true :=
        ⟨fun hflag => (h.shown hflag).resolve_left (not_not_intro hnone),
          fun hboth => h.opened hboth.1 (.inr hboth.2)⟩
      have hgone : take.relay.deltaQueues.lookup key = none ↔
          ¬ take.relay.deltaQueues.lookup key = some q := by
        rcases h.queue with hqueue | hqueue <;> simp [hqueue]
      rw [hout]
      dsimp only
      rw [hgone]
      split
      · rename_i hall
        have hboth := hopen.mp hall.2.1
        simp [hne, hall.1, hall.2.2, hboth.1, hboth.2]
      · rename_i hnot
        refine iff_of_true rfl ?_
        rw [hopen] at hnot
        simp only [not_and, Bool.not_eq_false] at hnot
        by_contra hnone
        simp only [not_or, Bool.not_eq_true, Bool.not_eq_false, not_not] at hnone
        simp [hnot hnone.1 ⟨hnone.2.2.1, hnone.2.2.2⟩] at hnone
    | some line =>
      obtain ⟨text, rfl⟩ := h.statuses line (List.mem_of_getLast? hlast)
      have hsome : before ≠ [] := by
        rintro rfl
        cases hlast
      have hopen : (take.relay.deltaQueues.lookup key = some q ∨
          take.relay.textStatusOpen.getD key false = true) ↔
            take.relay.textStatusOpen.getD key false = true :=
        ⟨fun heither => heither.elim (fun hqueue => h.opened hqueue (.inl hsome)) id, .inr⟩
      rw [hout]
      dsimp only
      rw [hopen]
      split
      · rename_i hall
        simp [startsWith_newline, hall.1, hall.2.1, hall.2.2]
      · rename_i hnot
        simp only [true_or, true_and, hline, Bool.false_eq_true, false_or]
        refine (or_iff_left ?_).symm
        rintro ⟨htimely, hreply, hflag⟩
        exact hnot ⟨htimely, hflag, hreply⟩

end

/-! ## Runs of a stream -/

namespace Relay

/-- What leaves the text stream of a session to its turn. -/
structure SparesText (key : PyStr) (q : Nat) (r r' : Relay) : Prop where
  items : r'.queues q = r.queues q
  text : r'.textState key = r.textState key
  owner : ∀ other, r'.deltaQueues.lookup other = some q → r.deltaQueues.lookup other = some q

end Relay

section
variable [Runtime] [CaseMap]

/-- A stream from its `chat.send` on, with the lines that it has shown.  Meanwhile the gateway sends
events and answers, other turns run, a stream of the session that was abandoned earlier may be closed,
and the gateway may be lost. -/
inductive PlainRun (t : Turn) (key : PyStr) (q : Nat) : List Line → Await → Relay → Prop where
  | sent {r r' : Relay} {req : PyStr} {future : Nat} (numbered : r.Numbered)
      (opened : r.sendTurn t key req false = (r', .at (.send key q req future))) :
      PlainRun t key q [] (.send key q req future) r'
  | event {lines : List Line} {a : Await} {r r' : Relay} {msg : Dict}
      (run : PlainRun t key q lines a r) (handled : r.handleEvent msg = some r') :
      PlainRun t key q lines a r'
  | response {lines : List Line} {a : Await} {r r' : Relay} {msg : Dict}
      (run : PlainRun t key q lines a r) (handled : r.handleResponse msg = some r') :
      PlainRun t key q lines a r'
  | resumed {lines : List Line} {a a' : Await} {r r' : Relay} {signal : Signal}
      (run : PlainRun t key q lines a r) (piece : r.resume t a signal = some (r', .at a')) :
      PlainRun t key q (lines ++ r.lineOf q a signal a') a' r'
  | elsewhere {lines : List Line} {a : Await} {r r' : Relay} (run : PlainRun t key q lines a r)
      (spares : Relay.SparesText key q r r') : PlainRun t key q lines a r'
  | finalised {lines : List Line} {a : Await} {r : Relay} (run : PlainRun t key q lines a r) :
      PlainRun t key q lines a (r.closeStream key)
  | disconnected {lines : List Line} {a : Await} {r : Relay} (run : PlainRun t key q lines a r) :
      PlainRun t key q lines a r.reset

/-- A stream that has not shown its reply; `progress` while its progress line is not recorded. -/
structure Unreplied (key : PyStr) (q : Nat) (lines : List Line) (progress : Bool) (r : Relay)
    (posts : List Post) : Prop where
  statuses : ∀ line ∈ lines, ∃ text, line = .status text
  attends : Relay.Attends key q r
  items : r.queues q = chunksOf posts
  proper : ∀ post ∈ posts, post.Proper
  noted : progress = true → lines ≠ []
  opened : (r.textState key).queue = some q → (lines ≠ [] ∨ ∃ text, Post.line text ∈ posts) →
    progress = true ∨ (r.textState key).statusOpen = true
  shown : (r.textState key).statusOpen = true →
    lines ≠ [] ∨ (r.textState key).queue = some q ∧ ∃ text, Post.line text ∈ posts
  named : (r.textState key).queue = some q → (r.textState key).toolName ≠ [] →
    (r.textState key).statusOpen = true

/-- A stream that has shown its reply is about to end. -/
structure Replied (key : PyStr) (q : Nat) (lines : List Line) (a : Await) (r : Relay) : Prop where
  attends : Relay.Attends key q r
  closes : (r.queues q).head? = some .close
  yields : ∃ loop output, a = .yield key q loop output
  lawful : ∃ before take, lines = before ++ [.reply take] ∧ (∀ line ∈ before, ∃ text, line = .status text) ∧
    (take.Lawful before ↔ take.Fits key q before)

variable {t : Turn} {key : PyStr} {q : Nat} {lines : List Line} {r r' : Relay} {posts : List Post}
  {a a' : Await} {progress : Bool}

omit [Runtime] [CaseMap] in
theorem Relay.Attends.of_queues (h : Relay.Attends key q r) (hqueues : r'.deltaQueues = r.deltaQueues) :
    Relay.Attends key q r' :=
  ⟨hqueues ▸ h.queue, hqueues ▸ h.owner⟩

omit [Runtime] [CaseMap] in
/-- A step that posts nothing and leaves the text state, or takes it away. -/
theorem Unreplied.kept (h : Unreplied key q lines progress r posts) (hattends : Relay.Attends key q r')
    {more : List Post} (hmore : ∀ post ∈ more, ∃ e, post = .error e)
    (hitems : r'.queues q = r.queues q ++ chunksOf more)
    (htext : r'.textState key = r.textState key ∨ (r'.textState key).queue = none ∧
      (r'.textState key).statusOpen = false) : Unreplied key q lines progress r' (posts ++ more) := by
  have hlines : (∃ text, Post.line text ∈ posts ++ more) ↔ ∃ text, Post.line text ∈ posts := by
    refine exists_congr fun text => ?_
    rw [List.mem_append, or_iff_left]
    intro hmem
    obtain ⟨e, he⟩ := hmore _ hmem
    cases he
  refine ⟨h.statuses, hattends, ?_, ?_, h.noted, ?_, ?_, ?_⟩
  · rw [hitems, h.items]
    simp [chunksOf]
  · intro post hpost
    rcases List.mem_append.mp hpost with hpost | hpost
    · exact h.proper post hpost
    · obtain ⟨e, rfl⟩ := hmore post hpost
      trivial
  · rw [hlines]
    rcases htext with htext | ⟨hqueue, -⟩
    · rw [htext]
      exact h.opened
    · simp [hqueue]
  · rw [hlines]
    rcases htext with htext | ⟨-, hopen⟩
    · rw [htext]
      exact h.shown
    · simp [hopen]
  · rcases htext with htext | ⟨hqueue, -⟩
    · rw [htext]
      exact h.named
    · simp [hqueue]

omit [Runtime] [CaseMap] in
theorem Unreplied.follows (h : Unreplied key q lines progress r posts)
    (hqueues : r'.deltaQueues = r.deltaQueues) (hposts : Relay.Posts key q r r') :
    ∃ posts, Unreplied key q lines progress r' posts := by
  have hattends := h.attends.of_queues hqueues
  cases hposts with
  | nothing items text =>
    exact ⟨posts ++ [], h.kept hattends (by simp) (by simpa [chunksOf] using items) (.inl text)⟩
  | posted post proper attached items text =>
    have hproper : ∀ p ∈ posts ++ [post], p.Proper := by
      intro p hp
      rcases List.mem_append.mp hp with hp | hp
      · exact h.proper p hp
      · rwa [List.mem_singleton.mp hp]
    have hitems : r'.queues q = chunksOf (posts ++ [post]) := by
      rw [items, h.items, chunksOf_concat]
    cases post with
    -- a line is the only post that opens the status
    | line text' =>
      obtain ⟨hqueue, hopens⟩ := text
      have hopen : (r'.textState key).statusOpen = true := by
        rcases hopens with hopen | ⟨hsame, hname⟩
        · exact hopen
        · rw [hsame]
          exact h.named attached hname
      exact ⟨_, h.statuses, hattends, hitems, hproper, h.noted, fun _ _ => .inr hopen,
        fun _ => .inr ⟨hqueue.trans attached, text', by simp⟩, fun _ _ => hopen⟩
    | _ =>
      have hsame : r'.textState key = r.textState key := text
      refine ⟨_, h.statuses, hattends, hitems, hproper, h.noted, ?_, ?_, ?_⟩
      · rw [hsame]
        simpa using h.opened
      · rw [hsame]
        simpa using h.shown
      · rw [hsame]
        exact h.named

omit [Runtime] [CaseMap] in
/-- The stream shows a status line. -/
theorem Unreplied.shows (h : Unreplied key q lines false r posts) {text : PyStr} {left : List Post}
    (hqueues : r'.deltaQueues = r.deltaQueues) (hitems : r'.queues q = chunksOf left)
    (hleft : ∀ post ∈ left, post ∈ posts)
    (hopen : (r'.textState key).statusOpen = true ∨ r'.textState key = r.textState key ∧
      ∃ text, Post.line text ∈ posts) :
    Unreplied key q (lines ++ [.status text]) false r' left := by
  have hqueue : (r'.textState key).queue = (r.textState key).queue := by
    show r'.deltaQueues.lookup key = _
    rw [hqueues]
    rfl
  have hattached : (r'.textState key).queue = some q → (r'.textState key).statusOpen = true := by
    intro hattached
    rcases hopen with hopen | ⟨hsame, hline⟩
    · exact hopen
    · rw [hsame] at hattached ⊢
      exact (h.opened hattached (.inr hline)).resolve_left Bool.false_ne_true
  refine ⟨?_, h.attends.of_queues hqueues, hitems, fun post hpost => h.proper post (hleft post hpost),
    fun hnone => absurd hnone Bool.false_ne_true, fun hattends _ => .inr (hattached hattends), fun _ => .inl (by simp), fun hattends _ => hattached hattends⟩
  intro line hline
  rcases List.mem_append.mp hline with hline | hline
  · exact h.statuses line hline
  · exact ⟨text, List.mem_singleton.mp hline⟩

omit [Runtime] [CaseMap] in
/-- The stream shows its progress line. -/
theorem Unreplied.progresses (h : Unreplied key q lines progress r posts) {text : PyStr}
    (hqueues : r'.deltaQueues = r.deltaQueues) (hitems : r'.queues q = chunksOf posts)
    (htext : r'.textState key = r.textState key) :
    Unreplied key q (lines ++ [.status text]) true r' posts := by
  refine ⟨?_, h.attends.of_queues hqueues, hitems, h.proper, fun _ => by simp, fun _ _ => .inl rfl,
    fun _ => .inl (by simp), htext ▸ h.named⟩
  intro line hline
  rcases List.mem_append.mp hline with hline | hline
  · exact h.statuses line hline
  · exact ⟨text, List.mem_singleton.mp hline⟩

omit [Runtime] [CaseMap] in
/-- The loop comes back, and records the progress line that it has shown. -/
theorem Unreplied.woken (hstreams : a.Streams key q) (h : Unreplied key q lines a.progresses r posts) :
    Unreplied key q lines false (r.woken a) posts := by
  have hsame : a.progresses = false → r.woken a = r →
      Unreplied key q lines false (r.woken a) posts := fun hprogress hwoken => by
    rw [hprogress] at h
    rwa [hwoken]
  cases a with
  | yield canonical consumer loop output =>
    cases output with
    | progress text =>
      obtain ⟨rfl, -⟩ := hstreams
      have hlines := h.noted rfl
      have hopen : ((r.yielded canonical (.progress text)).textState canonical).statusOpen = true := by
        simp [Relay.textState, Relay.yielded, OrderedDict.getD]
      exact ⟨h.statuses, ⟨h.attends.queue, h.attends.owner⟩, h.items, h.proper,
        fun hnone => absurd hnone Bool.false_ne_true, fun _ _ => .inr hopen, fun _ => .inl hlines, fun _ _ => hopen⟩
    | _ => exact hsame rfl rfl
  | _ => exact hsame rfl rfl

omit [Runtime] [CaseMap] in
/-- The posts behind a frame or a text at the front of the queue. -/
theorem chunksOf_cons {item : Chunk} {rest : List Chunk} (h : chunksOf posts = item :: rest) :
    ∃ post left, posts = post :: left ∧ item :: rest = post.chunks ++ chunksOf left := by
  cases posts with
  | nil => cases h
  | cons post left => exact ⟨post, left, rfl, h.symm⟩

omit [Runtime] [CaseMap] in
/-- A text that is not the reply. -/
theorem lineOf_line {before : Await} {next item text : PyStr} {expired : Bool} {left : List Post}
    (hitems : r.queues q = .text item :: chunksOf left) {loop : Loop} :
    r.lineOf q before (.ready next expired) (.yield key q loop (.text text)) = [.status text] := by
  unfold Relay.lineOf
  rw [hitems]
  cases left with
  | nil => rfl
  | cons post left => cases post <;> rfl

/-- A piece of a stream that has not shown its reply. -/
theorem Unreplied.resumed {signal : Signal} (hstream : t.stream = true) (hstreams : a.Streams key q)
    (h : Unreplied key q lines a.progresses r posts)
    (piece : r.resume t a signal = some (r', .at a')) : a'.Streams key q ∧
      ((∃ left, Unreplied key q (lines ++ r.lineOf q a signal a') a'.progresses r' left) ∨
        Replied key q (lines ++ r.lineOf q a signal a') a' r') := by
  obtain ⟨hqueues, ⟨⟨next, expired, rfl⟩, htaken⟩ | ⟨⟨expired, rfl⟩, hitems, hkept⟩⟩ :=
    Relay.resume_serves hstream hstreams piece
  · -- the loop records its progress line before it looks at the queue
    have hwoken := h.woken hstreams
    have hsame : (r.woken a).queues = r.queues := r.woken_queues a
    rw [← r.woken_deltaQueues a] at hqueues
    have hattends := hwoken.attends.of_queues hqueues
    -- a text at the front is a status line, or the reply
    have htext : ∀ {item out : PyStr} {loop : Loop}, (r.woken a).queues q = .text item :: r'.queues q →
        (r'.textState key = (r.woken a).textState key ∨ r'.textState key =
          { (r.woken a).textState key with statusOpen := isPlainTextStatusChunk item }) →
        out = (if a.drains (.ready next expired) then item else (r.woken a).separated key item) →
        (∃ left, Unreplied key q (lines ++ r.lineOf q a (.ready next expired)
          (.yield key q loop (.text out))) false r' left) ∨
        Replied key q (lines ++ r.lineOf q a (.ready next expired) (.yield key q loop (.text out)))
          (.yield key q loop (.text out)) r' := by
      intro item out loop hfront hstate hout
      obtain ⟨post, left, rfl, hchunks⟩ := chunksOf_cons (hwoken.items.symm.trans hfront)
      rw [hsame] at hfront
      cases post with
      | line text =>
        obtain ⟨hsame, hrest⟩ := List.cons.inj hchunks
        obtain rfl := Chunk.text.inj hsame
        left
        rw [lineOf_line (hfront.trans (by rw [hrest]; rfl))]
        refine ⟨left, hwoken.shows hqueues hrest (fun _ => List.mem_cons_of_mem _) ?_⟩
        rcases hstate with hstate | hstate
        · exact .inr ⟨hstate, item, List.mem_cons_self⟩
        · rw [hstate]
          exact .inl (hwoken.proper _ List.mem_cons_self)
      | reply text =>
        obtain ⟨hsame, hrest⟩ := List.cons.inj hchunks
        obtain rfl := Chunk.text.inj hsame
        right
        have hall : r.queues q = .text item :: .close :: chunksOf left := by
          rw [hfront, hrest]
          rfl
        have hline : r.lineOf q a (.ready next expired) (.yield key q loop (.text out)) =
            [.reply ⟨r.woken a, item, chunksOf left, a.drains (.ready next expired), out⟩] := by
          unfold Relay.lineOf
          rw [hall]
        have hwaits : (∃ text, Post.line text ∈ Post.reply item :: left) ↔
            statusWaits (chunksOf left) = true := by
          rw [statusWaits_chunksOf]
          simp
        rw [hline]
        refine ⟨hattends, by rw [hrest]; rfl, ⟨loop, _, rfl⟩, lines, _, rfl, h.statuses, ?_⟩
        apply Take.Sound.lawful_iff
        refine ⟨hwoken.proper _ List.mem_cons_self, hout, h.statuses, hwoken.attends.queue, ?_, ?_⟩
        · rw [← hwaits]
          exact fun hopen hlines => (hwoken.opened hopen hlines).resolve_left Bool.false_ne_true
        · rw [← hwaits]
          exact hwoken.shown
      | frame f => cases (List.cons.inj hchunks).1
      | error e => cases (List.cons.inj hchunks).1
    cases htaken with
    | waits items text =>
      refine ⟨⟨rfl, rfl⟩, .inl ⟨posts ++ [], ?_⟩⟩
      rw [show r.lineOf q a _ _ = [] from rfl, List.append_nil lines]
      exact hwoken.kept hattends (by simp) (by simpa [chunksOf] using items) (.inl text)
    | @frame loop f items text =>
      refine ⟨⟨rfl, rfl⟩, .inl ?_⟩
      rw [show r.lineOf q a _ _ = [] from rfl, List.append_nil lines]
      obtain ⟨post, left, rfl, hchunks⟩ := chunksOf_cons (hwoken.items.symm.trans items)
      cases post with
      | frame f' =>
        refine ⟨left, h.statuses, hattends, (List.cons.inj hchunks).2,
          fun post hpost => hwoken.proper post (List.mem_cons_of_mem _ hpost),
          fun hnone => absurd hnone Bool.false_ne_true, ?_, ?_, ?_⟩
        · rw [text]
          simpa [Await.progresses] using hwoken.opened
        · rw [text]
          simpa using hwoken.shown
        · rw [text]
          exact hwoken.named
      | line text' => cases (List.cons.inj hchunks).1
      | reply text' => cases (List.cons.inj hchunks).1
      | error e => cases (List.cons.inj hchunks).1
    | drained past items text => exact ⟨⟨rfl, rfl⟩, htext items (.inl text) (if_pos past).symm⟩
    | text timely items text =>
      refine ⟨⟨rfl, rfl⟩, htext items (.inr text) (if_neg ?_).symm⟩
      simp [timely]
  · have hitems : r'.queues q = chunksOf posts := (congrFun hitems q).trans h.items
    cases hkept with
    | @progress loop line text =>
      exact ⟨⟨rfl, rfl⟩, .inl ⟨posts, h.progresses hqueues hitems text⟩⟩
    | silent text =>
      -- only a wait for the queue runs out of time
      have hprogress : a.progresses = false := by
        cases a with
        | yield canonical consumer loop output => cases piece
        | _ => rfl
      rw [hprogress] at h
      refine ⟨⟨rfl, rfl⟩, .inl ⟨posts ++ [], ?_⟩⟩
      rw [show r.lineOf q a _ _ = [] from rfl, List.append_nil lines]
      have hnothing : ∀ post ∈ ([] : List Post), ∃ e, post = .error e := by simp
      exact h.kept (h.attends.of_queues hqueues) hnothing (by simp [hitems, h.items, chunksOf])
        (.inl text)

/-! ## Steps outside the stream -/

omit [Runtime] [CaseMap] in
theorem Replied.kept (h : Replied key q lines a r) (hattends : Relay.Attends key q r')
    {more : List Chunk} (hitems : r'.queues q = r.queues q ++ more) : Replied key q lines a r' := by
  refine ⟨hattends, ?_, h.yields, h.lawful⟩
  obtain ⟨rest, hrest⟩ := List.head?_eq_some_iff.mp h.closes
  rw [hitems, hrest]
  rfl

omit [CaseMap] in
/-- A stream that has shown its reply ends when it goes on. -/
theorem Replied.not_resumed [CaseMap] {signal : Signal} (h : Replied key q lines a r) :
    r.resume t a signal ≠ some (r', .at a') := by
  obtain ⟨loop, output, rfl⟩ := h.yields
  obtain ⟨rest, hrest⟩ := List.head?_eq_some_iff.mp h.closes
  cases signal with
  | ready next expired =>
    rw [Relay.resume, Relay.loopTop, Relay.yielded_queues, hrest]
    simp [Relay.takeItem]
  | _ => simp [Relay.resume]

/-- A step of others, seen from the stream: it posts nothing but the loss of the gateway, and leaves
the text state or takes it away. -/
structure Relay.Interrupts (key : PyStr) (q : Nat) (r r' : Relay) : Prop where
  attends : Attends key q r → Attends key q r'
  items : ∃ more, (∀ post ∈ more, ∃ e, post = Post.error e) ∧
    r'.queues q = r.queues q ++ chunksOf more
  text : r'.textState key = r.textState key ∨ (r'.textState key).queue = none ∧
    (r'.textState key).statusOpen = false

omit [CaseMap] in
theorem handleResponse_interrupts {msg : Dict} (handled : r.handleResponse msg = some r') :
    Relay.Interrupts key q r r' := by
  have hanswers := Relay.handleResponse_answers handled
  have hqueues : r'.deltaQueues = r.deltaQueues := (congrArg Registry.deltaQueues hanswers.registry :)
  refine ⟨fun h => h.of_queues hqueues, ⟨[], by simp, ?_⟩, .inl ?_⟩
  · rw [hanswers.queues]
    simp [chunksOf]
  · unfold Relay.textState
    rw [hqueues, hanswers.display]

omit [Runtime] [CaseMap] in
theorem Relay.SparesText.interrupts (h : Relay.SparesText key q r r') :
    Relay.Interrupts key q r r' := by
  refine ⟨fun hr => ⟨?_, fun other hother => hr.owner other (h.owner other hother)⟩,
    ⟨[], by simp, ?_⟩, .inl h.text⟩
  · have hqueue : r'.deltaQueues.lookup key = r.deltaQueues.lookup key :=
      congrArg TextState.queue h.text
    rw [hqueue]
    exact hr.queue
  · rw [h.items]
    simp [chunksOf]

omit [Runtime] [CaseMap] in
theorem closeStream_interrupts : Relay.Interrupts key q r (r.closeStream key) := by
  refine ⟨fun hr => ⟨.inr ?_, fun other hother => ?_⟩, ⟨[], by simp, ?_⟩, .inr ⟨?_, ?_⟩⟩
  · exact (OrderedDict.lookup_erase_eq ..).trans (if_pos rfl)
  · have hlookup : AList.lookup other (r.deltaQueues.erase key) = some q := hother
    rw [OrderedDict.lookup_erase_eq] at hlookup
    split at hlookup
    · cases hlookup
    · exact hr.owner other hlookup
  · simp [Relay.closeStream, chunksOf]
  · exact (OrderedDict.lookup_erase_eq ..).trans (if_pos rfl)
  · simp [Relay.textState, Relay.closeStream, OrderedDict.getD]

omit [Runtime] [CaseMap] in
theorem queues_reset (queues : Nat → List Chunk) (values : List Nat) (q : Nat) :
    ∃ more, (∀ post ∈ more, ∃ e, post = Post.error e) ∧
      values.foldl (fun queues q => Function.update queues q (queues q ++ [.error disconnected])) queues
        q = queues q ++ chunksOf more := by
  induction values generalizing queues with
  | nil => exact ⟨[], by simp, by simp [chunksOf]⟩
  | cons value values ih =>
    obtain ⟨more, hmore, hitems⟩ :=
      ih (Function.update queues value (queues value ++ [.error disconnected]))
    rw [List.foldl_cons, hitems]
    by_cases hvalue : q = value
    · subst hvalue
      refine ⟨.error disconnected :: more, ?_, ?_⟩
      · intro post hpost
        rcases List.mem_cons.mp hpost with rfl | hpost
        · exact ⟨_, rfl⟩
        · exact hmore post hpost
      · rw [Function.update_self, List.append_assoc]
        rfl
    · exact ⟨more, hmore, by rw [Function.update_of_ne hvalue]⟩

omit [Runtime] [CaseMap] in
theorem reset_interrupts : Relay.Interrupts key q r r.reset :=
  ⟨fun _ => ⟨.inr rfl, fun _ hother => by cases hother⟩, queues_reset _ _ q, .inr ⟨rfl, rfl⟩⟩

/-! ## The law -/

omit [Runtime] [CaseMap] in
/-- A new stream has nothing to show but an approval that was replayed. -/
theorem unreplied_sent {r r' : Relay} {req : PyStr} {future : Nat} (hstream : t.stream = true)
    (hnumbered : r.Numbered)
    (hopened : r.sendTurn t key req false = (r', .at (.send key q req future))) :
    ∃ posts, Unreplied key q [] false r' posts := by
  cases hopened
  have hinstall : r.install t key =
      ((r.clearTurn key).newStream key t.useToolFrames).showReplayed key := by
    unfold Relay.install
    rw [if_pos hstream]
    rfl
  -- the queue has a new number, so no other session has it
  have hattends : Relay.Attends key r.next ((r.clearTurn key).newStream key t.useToolFrames) := by
    refine ⟨.inl ?_, fun other hother => ?_⟩
    · exact (OrderedDict.lookup_set ..).trans (if_pos rfl)
    · have hlookup : (r.deltaQueues.set key r.next).lookup other = some r.next := hother
      rw [OrderedDict.lookup_set] at hlookup
      split at hlookup
      · assumption
      · exact absurd (hnumbered other _ hlookup) (lt_irrefl _)
  have hnew : Unreplied key r.next [] false ((r.clearTurn key).newStream key t.useToolFrames) [] := by
    refine ⟨by simp, hattends, Function.update_self .., by simp, by simp, by simp, fun hopen => ?_,
      fun _ hname => ?_⟩
    · simp [Relay.textState, Relay.newStream, OrderedDict.getD] at hopen
    · simp [Relay.textState, Relay.newStream, OrderedDict.getD] at hname
  -- an approval of the turn before is shown again as a line
  have hposts : Relay.Posts key r.next ((r.clearTurn key).newStream key t.useToolFrames)
      (r.install t key) := by
    rw [hinstall]
    unfold Relay.showReplayed
    split
    · refine Relay.Posts.behind ?_ ?_ (Relay.pushApprovalLine_posts ?_ _
        (isPlainTextStatusChunk_iff.mpr (.inl (by simp))))
      · rfl
      · rfl
      · exact ⟨hattends.queue, hattends.owner⟩
    · exact .nothing rfl rfl
  have hqueues : (r.install t key).deltaQueues =
      ((r.clearTurn key).newStream key t.useToolFrames).deltaQueues := by
    rw [hinstall]
    exact (Relay.showReplayed_queues _ _).1
  obtain ⟨posts, hinstalled⟩ := hnew.follows hqueues hposts
  have hattended : Relay.Attends key r.next ((r.install t key).prepareSend key req) :=
    hinstalled.attends.of_queues rfl
  refine ⟨posts ++ [], hinstalled.kept hattended (by simp) ?_ (.inl rfl)⟩
  simp [chunksOf, Relay.prepareSend, Relay.newFuture]

/-- Where a stream stands at every moment. -/
theorem PlainRun.stands (hstream : t.stream = true) (h : PlainRun t key q lines a r) :
    a.Streams key q ∧
      ((∃ posts, Unreplied key q lines a.progresses r posts) ∨ Replied key q lines a r) := by
  have hinterrupted : ∀ {lines a r r'}, Relay.Interrupts key q r r' →
      (∃ posts, Unreplied key q lines a.progresses r posts) ∨ Replied key q lines a r →
      (∃ posts, Unreplied key q lines a.progresses r' posts) ∨ Replied key q lines a r' := by
    intro lines a r r' hstep hstands
    obtain ⟨more, hmore, hitems⟩ := hstep.items
    rcases hstands with ⟨posts, hopen⟩ | hdone
    · exact .inl ⟨_, hopen.kept (hstep.attends hopen.attends) hmore hitems hstep.text⟩
    · exact .inr (hdone.kept (hstep.attends hdone.attends) hitems)
  induction h with
  | sent numbered opened =>
    exact ⟨⟨rfl, rfl⟩, .inl (unreplied_sent hstream numbered opened)⟩
  -- behind the reply nothing more is shown, whatever is posted
  | event run handled ih =>
    have hregistry := (Relay.handleEvent_showsOnly handled).registry
    refine ih.imp_right fun hstands => ?_
    rcases hstands with ⟨posts, hopen⟩ | hdone
    · exact .inl (hopen.follows (congrArg Registry.deltaQueues hregistry)
        (Relay.handleEvent_posts hopen.attends handled))
    · have hattends := hdone.attends.of_queues (congrArg Registry.deltaQueues hregistry)
      cases Relay.handleEvent_posts hdone.attends handled with
      | nothing items text =>
        exact .inr (hdone.kept hattends (items.trans (List.append_nil _).symm))
      | posted post proper attached items text => exact .inr (hdone.kept hattends items)
  | response run handled ih => exact ih.imp_right (hinterrupted (handleResponse_interrupts handled))
  | resumed run piece ih =>
    rcases ih.2 with ⟨posts, hopen⟩ | hdone
    · exact hopen.resumed hstream ih.1 piece
    · exact absurd piece hdone.not_resumed
  | elsewhere run spares ih => exact ih.imp_right (hinterrupted spares.interrupts)
  | finalised run ih => exact ih.imp_right (hinterrupted closeStream_interrupts)
  | disconnected run ih => exact ih.imp_right (hinterrupted reset_interrupts)

/-- In every run of a stream all lines but the last are status lines, and the reply comes out right
just if the loop could get it right. -/
theorem separator_iff (hstream : t.stream = true) (h : PlainRun t key q lines a r)
    {before after : List Line} {take : Take} (hlines : lines = before ++ .reply take :: after) :
    ((∀ line ∈ before, ∃ text, line = .status text) ∧ after = []) ∧
      (take.Lawful before ↔ take.Fits key q before) := by
  subst hlines
  have hreply : ∀ {others : List Line}, (∀ line ∈ others, ∃ text, line = .status text) →
      .reply take ∉ others := by
    intro others hothers hmem
    obtain ⟨text, htext⟩ := hothers _ hmem
    cases htext
  rcases (h.stands hstream).2 with ⟨posts, hopen⟩ | hdone
  · exact absurd (by simp) (hreply hopen.statuses)
  · obtain ⟨front, last, heq, hfront, hlaw⟩ := hdone.lawful
    obtain ⟨hbefore, hlast⟩ : before = front ∧ .reply take :: after = [.reply last] := by
      rcases List.eq_nil_or_concat after with rfl | ⟨inner, line, rfl⟩
      · exact List.append_inj' heq rfl
      · rw [List.concat_eq_append, ← List.cons_append, ← List.append_assoc] at heq
        have hsplit := List.append_inj' heq rfl
        exact absurd (by rw [← hsplit.1]; simp) (hreply hfront)
    obtain ⟨hsame, hafter⟩ := List.cons.inj hlast
    obtain rfl := Line.reply.inj hsame
    subst hbefore
    exact ⟨⟨hfront, hafter⟩, hlaw⟩

end

/-! ## A reply behind a tool marker -/

namespace MarkerSample

open Sample

/-- A plain-text stream. -/
def plainTurn : Turn := { frameTurn with useToolFrames := false }

/-- The final text of the assistant. -/
def replyMsg (text : PyStr) : Dict :=
  [(py "event", .str (py "chat")), (py "payload", .dict [(py "sessionKey", .str (py "k")),
    (py "runId", .str (py "run1")), (py "role", .str (py "assistant")),
    (py "state", .str (py "final")), (py "message", .str text)])]

def sentPlain : Relay := (({} : Relay).sendTurn plainTurn (py "k") (py "r0") false).1

def startedPlain : Relay := (sentPlain.handleResponse (runStarted (py "r0") (py "run1"))).getD {}

/-- The relay after a tool has started. -/
def markedPlain : Relay :=
  (startedPlain.handleEvent (toolEventMsg (py "k") (py "run1") toolStart)).getD {}

def marker : PyStr := py "🔧 Calling Bash..."

/-- The relay and the suspension after the marker was shown. -/
def shownPlain : Relay × Halt :=
  (markedPlain.resume plainTurn (.send (py "k") 0 (py "r0") 1) (.ready [] false)).getD ({}, .out .closed)

/-- The stream behind its marker. -/
def behindMarker : Await := .yield (py "k") 0 { hasYieldedUserVisible := true } (.text marker)

theorem marker_run : PlainRun plainTurn (py "k") 0 [.status marker] behindMarker shownPlain.1 := by
  have hnumbered : Relay.Numbered {} := fun _ _ h => by cases h
  have hsent : PlainRun plainTurn (py "k") 0 [] (.send (py "k") 0 (py "r0") 1) sentPlain :=
    .sent hnumbered rfl
  have hstarted : sentPlain.handleResponse (runStarted (py "r0") (py "run1")) = some startedPlain := rfl
  have hmarked : startedPlain.handleEvent (toolEventMsg (py "k") (py "run1") toolStart) =
      some markedPlain := rfl
  have hshown : markedPlain.resume plainTurn (.send (py "k") 0 (py "r0") 1) (.ready [] false) =
      some (shownPlain.1, .at behindMarker) := rfl
  exact ((hsent.response hstarted).event hmarked).resumed hshown

/-- The relay with the final text at hand. -/
def repliedPlain (text : PyStr) : Relay := (shownPlain.1.handleEvent (replyMsg text)).getD {}

/-- The reply as it is shown behind the marker. -/
def takeOf (text out : PyStr) : Take := ⟨repliedPlain text, text, [], false, out⟩

theorem reply_run (text out : PyStr) {a : Await} {r : Relay}
    (hreplied : shownPlain.1.handleEvent (replyMsg text) = some (repliedPlain text))
    (hshown : (repliedPlain text).resume plainTurn behindMarker (.ready [] false) = some (r, .at a))
    (hline : (repliedPlain text).lineOf 0 behindMarker (.ready [] false) a =
      [.reply (takeOf text out)]) :
    PlainRun plainTurn (py "k") 0 [.status marker, .reply (takeOf text out)] a r := by
  have hrun := (marker_run.event hreplied).resumed hshown
  rw [hline] at hrun
  exact hrun

/-- A plain reply starts on a new line. -/
theorem separator_done : ∃ a r, PlainRun plainTurn (py "k") 0
      [.status marker, .reply (takeOf (py "Done") (10 :: py "Done"))] a r ∧
    (takeOf (py "Done") (10 :: py "Done")).Lawful [.status marker] := by
  have hfits : (takeOf (py "Done") (10 :: py "Done")).Fits (py "k") 0 [.status marker] :=
    .inr (.inr ⟨rfl, by decide, .inl rfl⟩)
  have hlines : [.status marker, .reply (takeOf (py "Done") (10 :: py "Done"))] =
      [.status marker] ++ Line.reply (takeOf (py "Done") (10 :: py "Done")) :: [] := rfl
  have hrun := reply_run (py "Done") (10 :: py "Done") rfl rfl rfl
  exact ⟨_, _, hrun, (separator_iff rfl hrun hlines).2.mpr hfits⟩

/-- A reply that looks like a marker goes on in the line of the marker before it. -/
theorem separator_missing : ∃ a r, PlainRun plainTurn (py "k") 0
      [.status marker, .reply (takeOf (py "🔧 Calling home") (py "🔧 Calling home"))] a r ∧
    ¬ (takeOf (py "🔧 Calling home") (py "🔧 Calling home")).Lawful [.status marker] := by
  refine ⟨_, _, reply_run _ _ rfl rfl rfl, ?_⟩
  rintro ⟨-, hline | hmarker⟩
  · exact absurd hline (by decide)
  · exact absurd hmarker (by decide)

end MarkerSample

end HassNode.ChatRelay
