import HassNode.ChatEvents

/-!
# Runs of a relay

A `World` is a relay with the turns that were started on it.  `step` performs one label: a turn runs
to its next suspension, the gateway's reader handles a frame, or the connection is lost.  The event
loop may take the labels in any order; what a label does is determined.
-/

namespace HassNode.ChatRelay

open Py

/-- What a turn does next. -/
inductive Action where
  /-- `stream_turn` or `relay_turn` is called. -/
  | call (stream : Bool) (conversationId : PyStr) (authz : Option TurnAuthz) (useToolFrames : Bool)
  /-- `_require_resolvable_owner` ends the call. -/
  | refuse (outcome : Outcome)
  /-- The lock of the session key is fetched. -/
  | contend
  /-- A cancellation while the turn waits for its lock. -/
  | withdraw
  /-- The lock is acquired and the body begins. -/
  | enter (req : PyStr) (expired : Bool) (now : Int)
  | resume (signal : Signal) (now : Int)
  /-- The generator of `stream_turn` is closed at a `yield`: the turn ends, the inner generator is
  left to the event loop. -/
  | abandon (now : Int)
  /-- The event loop closes the inner generator of an abandoned stream. -/
  | finalise

inductive Label where
  | turn (i : Nat) (action : Action)
  | response (msg : Dict)
  | event (msg : Dict)
  | reset

structure World where
  relay : Relay
  turns : Nat → Option Turn

/-- A relay without turns. -/
def World.init : World := ⟨{}, fun _ => none⟩

/-- `uuid4` does not draw an id twice. -/
def Signal.fresh (drawn : List PyStr) : Signal → Bool
  | .ready req _ => req ∉ drawn
  | _ => true

namespace World

def put (w : World) (i : Nat) (t : Turn) (r : Relay) : World :=
  ⟨r, Function.update w.turns i (some t)⟩

section
variable [Runtime] [CaseMap]

/-- The turn is suspended again, or its body has ended and the contexts around it are left. -/
def halt (w : World) (i : Nat) (t : Turn) (lock : Nat) (now : Int) : Relay × Halt → World
  | (r, .at a) => w.put i { t with phase := .running lock a } r
  | (r, .out outcome) =>
    w.put i { t with phase := .ended outcome } (r.leaveTurn lock t.sessionKey now)

/-- One action of a turn that was called. -/
def act (w : World) (i : Nat) (t : Turn) (action : Action) : Option World :=
  match t.phase, action with
  | .owner, .refuse outcome => some (w.put i { t with phase := .ended outcome } w.relay)
  | .owner, .contend =>
    let locked := w.relay.turnLock t.sessionKey
    some (w.put i { t with phase := .locking locked.2 } locked.1)
  | .locking _, .withdraw => some (w.put i { t with phase := .ended .cancelled } w.relay)
  | .locking lock, .enter req expired now =>
    if w.relay.locked lock ∨ req ∈ w.relay.drawn then none
    else some (w.halt i t lock now
      ((w.relay.enterTurn lock t.sessionKey t.principal).openTurn t req expired))
  | .running lock a, .resume signal now =>
    if signal.fresh w.relay.drawn then (w.relay.resume t a signal).map (w.halt i t lock now)
    else none
  | .running lock (.yield canonical _ _ _), .abandon now =>
    some (w.put i { t with phase := .closing canonical }
      (w.relay.leaveTurn lock t.sessionKey now))
  | .closing canonical, .finalise =>
    some (w.put i { t with phase := .ended .cancelled } (w.relay.closeStream canonical))
  | _, _ => none

def step (w : World) : Label → Option World
  | .turn i (.call stream conversationId authz useToolFrames) =>
    match w.turns i with
    | some _ => none
    | none => some (w.put i
        { stream := stream
          sessionKey := sessionKeyOf conversationId authz
          principal := principalOf authz
          useToolFrames := useToolFrames } w.relay)
  | .turn i action => (w.turns i).bind fun t => w.act i t action
  | .response msg => (w.relay.handleResponse msg).map fun r => { w with relay := r }
  | .event msg => (w.relay.handleEvent msg).map fun r => { w with relay := r }
  | .reset => some { w with relay := w.relay.reset }

/-- The worlds that the labels allowed by `ok` lead to. -/
inductive Reachable (ok : World → Label → Prop) : World → Prop where
  | init : Reachable ok World.init
  | next {w w' : World} {label : Label} (before : Reachable ok w) (allowed : ok w label)
      (performed : w.step label = some w') : Reachable ok w'

/-- What one allowed step keeps holds in every world reached. -/
theorem Reachable.invariant {ok : World → Label → Prop} {Inv : World → Prop} (h₀ : Inv World.init)
    (hstep : ∀ w label w', Inv w → ok w label → w.step label = some w' → Inv w') {w : World}
    (h : Reachable ok w) : Inv w := by
  induction h with
  | init => exact h₀
  | next _ allowed performed ih => exact hstep _ _ _ ih allowed performed

/-- The world after a list of labels. -/
def run (w : World) : List Label → Option World
  | [] => some w
  | label :: labels => (w.step label).bind fun w' => w'.run labels

/-- Every label of a run is allowed where it is performed. -/
def Allowed (ok : World → Label → Prop) (w : World) : List Label → Prop
  | [] => True
  | label :: labels => ok w label ∧ ∀ w', w.step label = some w' → w'.Allowed ok labels

/-- What is allowed at every moment of a run is allowed in the run. -/
theorem allowed_of_prefixes {ok : World → Label → Prop} {w : World} {labels : List Label}
    (h : ∀ n w' label, labels[n]? = some label → w.run (labels.take n) = some w' → ok w' label) :
    w.Allowed ok labels := by
  induction labels generalizing w with
  | nil => trivial
  | cons label labels ih =>
    refine ⟨h 0 w label rfl rfl, fun w₁ hstep => ih fun n w' other hother hrun => ?_⟩
    apply h (n + 1) w' other hother
    rw [List.take_succ_cons, World.run, hstep]
    exact hrun

/-- A run of allowed labels is a way to a reachable world. -/
theorem Reachable.run {ok : World → Label → Prop} {w w' : World} {labels : List Label}
    (h : Reachable ok w) (hok : w.Allowed ok labels) (hrun : w.run labels = some w') :
    Reachable ok w' := by
  induction labels generalizing w with
  | nil =>
    rw [World.run, Option.some.injEq] at hrun
    exact hrun ▸ h
  | cons label labels ih =>
    rw [World.run, Option.bind_eq_some_iff] at hrun
    cases hrun with
    | intro w₁ hrun => exact ih (.next h hok.1 hrun.1) (hok.2 w₁ hrun.1) hrun.2

end

end World

/-! ## Samples -/

namespace Sample

scoped instance runtime : Runtime := .ofTable []

/-- The case mapping of ASCII letters. -/
scoped instance caseMap : CaseMap := .ascii

end Sample

def adminAuthz : TurnAuthz := ⟨some ⟨py "u1", true⟩, .admin, [], [py "fs.write"]⟩

def ownerAuthz : TurnAuthz := ⟨some ⟨py "u2", true⟩, .superAdmin, [], []⟩

/-- A turn that starts and enters. -/
def startLabels (i : Nat) (conversationId : PyStr) (authz : TurnAuthz) (req : PyStr) : List Label :=
  [.turn i (.call true conversationId (some authz) false), .turn i .contend,
    .turn i (.enter req false 0)]

/-- The answer to a request. -/
def answer (req : PyStr) (payload : Dict) : Label :=
  .response [(py "id", .str req), (py "ok", .bool true), (py "payload", .dict payload)]

/-- A turn that starts, subscribes under the canonical key and waits for its `chat.send`. -/
def sendLabels (i : Nat) (conversationId : PyStr) (authz : TurnAuthz) (canonical : PyStr)
    (reqs : PyStr × PyStr × PyStr) : List Label :=
  startLabels i conversationId authz reqs.1 ++
    [answer reqs.1 [], .turn i (.resume (.ready reqs.2.1 false) 0),
      answer reqs.2.1 [(py "key", .str canonical)], .turn i (.resume (.ready reqs.2.2 false) 0)]

end HassNode.ChatRelay
