import HassNode.StaticRefusals

/-!
# A gated call at the node

The handlers of the commands that the plugin gates, those of Home Assistant and those of files, and one
call of a handler: its response, and what it did to Home Assistant, to the Supervisor and to files.
-/

namespace HassNode.PreflightMirror

open Py Interaction ConfigMutation

/-- A handler, and what it works on. -/
inductive NodeHandler where
  | ha (handler : HaClient.Handler)
  | file (handler : FsMutations.Handler)

section
variable [Runtime] [BackupStore.Digest]

/-- The handlers of `fs_write.py`, `fs_restore.py`, `fs_patch.py` and `fs_move_delete.py`. -/
def fileHandlers : List (PyStr × FsMutations.Handler) :=
  [(py "fs.write", FsMutations.handleFsWrite), (py "fs.restore", FsMutations.handleFsRestore),
   (py "fs.patch", FsMutations.handleFsPatch), (py "fs.move", FsMutations.handleFsMove),
   (py "fs.delete", FsMutations.handleFsDelete)]

/-- The registered handler of a command that mutates. -/
def handlerOf (denylist : List PyStr) (command : PyStr) : Option NodeHandler :=
  match fileHandlers.lookup command, (Dispatcher.registry denylist).lookup command with
  | some handler, some .node => some (.file handler)
  | none, some (.ha handler) => some (.ha handler)
  | _, _ => none

end

/-! ## One call -/

/-- The world around a call: Home Assistant, the Supervisor and the file system. -/
structure World (ω : Type) extends HaClient.Environment ω where
  file : (op : FsMutations.FileOp) → ω → Except FsMutations.Exc op.Value × ω

/-- What a handler did outside the node's own tables. -/
inductive Effect where
  | request (r : HaClient.Request)
  | file (op : FsMutations.FileOp)

def haEffect : HaClient.Op → Option Effect
  | .consume _ _ _ => none
  | .request r => some (.request r)

def fileEffect : FsMutations.Op → Option Effect
  | .consume _ _ _ => none
  | .file op => some (.file op)

theorem haEffect_eq_none_iff {op : HaClient.Op} : haEffect op = none ↔ IsApproval op := by
  cases op with
  | consume command action params => exact iff_of_true rfl trivial
  | request r => exact iff_of_false (Option.some_ne_none _) id

theorem fileEffect_eq_none_iff {op : FsMutations.Op} : fileEffect op = none ↔ IsFileApproval op := by
  cases op with
  | consume command action params => exact iff_of_true rfl trivial
  | file op => exact iff_of_false (Option.some_ne_none _) id

theorem eq_ok_of_toOption {ε α : Type} {result : Except ε α} {value : α}
    (h : result.toOption = some value) : result = .ok value := by
  cases result with
  | ok other => exact congrArg Except.ok (Option.some.inj h)
  | error exc => exact absurd h.symm (Option.some_ne_none _)

theorem eq_error_of_toOption {ε α : Type} {result : Except ε α} (h : result.toOption = none) :
    ∃ exc, result = .error exc := by
  cases result with
  | ok value => exact absurd h (Option.some_ne_none _)
  | error exc => exact ⟨exc, rfl⟩

/-- The response, if the handler returned one, and the effects. -/
structure Outcome where
  response : Option Json
  effects : List Effect

section
variable [Runtime] {ω : Type}

def World.fileAnswer (world : World ω) :
    (op : FsMutations.Op) → UsedIds × ω → FsMutations.Ans op × (UsedIds × ω)
  | .consume command action params, (used, w) =>
    let r := consumeApprovalMarker world.caller (world.now w) used command action params
    (r.refusal, r.used, w)
  | .file op, (used, w) =>
    let (result, w') := world.file op w
    (result, used, w')

def NodeHandler.run (world : World ω) (params : Dict) (s : UsedIds × ω) : NodeHandler → Outcome
  | .ha handler =>
    let run := Prog.exec world.answer (handler params) s
    ⟨run.1.toOption, run.2.1.filterMap fun e => haEffect e.1⟩
  | .file handler =>
    let run := Prog.exec world.fileAnswer (handler params) s
    ⟨run.1.toOption, run.2.1.filterMap fun e => fileEffect e.1⟩

/-- The call of the handler of a command; `none` where no such handler is registered. -/
def invoke [BackupStore.Digest] (world : World ω) (denylist : List PyStr) (command : PyStr)
    (params : Dict) (s : UsedIds × ω) : Option Outcome :=
  (handlerOf denylist command).map (NodeHandler.run world params s)

/-! ## Refusals of a handler -/

/-- The handler refuses the params whatever the world is. -/
def NodeHandler.Refuses (raised : Prop) (params : Dict) : NodeHandler → Prop
  | .ha handler => ∃ response, handler params = HaClient.respond response ∧ IsError response
  | .file handler => PreflightMirror.Refuses raised (handler params)

/-- What the handler says on static grounds before it does anything has its ground in `T`. -/
def NodeHandler.Quiet (T : Prop) (params : Dict) : NodeHandler → Prop
  | .ha handler => PreflightMirror.Quiet T (handler params)
  | .file handler => FileQuiet T (handler params)

/-- No effect, and no response but an error; nothing is raised unless `raised` holds. -/
structure Outcome.Refused (raised : Prop) (outcome : Outcome) : Prop where
  silent : outcome.effects = []
  error : ∀ response, outcome.response = some response → IsError response
  raises : outcome.response = none → raised

theorem settled_answer (world : World ω) (op : HaClient.Op) (s : UsedIds × ω) (h : IsApproval op) :
    Settled op (world.answer op s).1 := by
  cases op with
  | consume command action params => exact fun denied => consume_refusal
  | request r => exact absurd h id

theorem settled_fileAnswer (world : World ω) (op : FsMutations.Op) (s : UsedIds × ω)
    (h : IsFileApproval op) : FileSettled op (world.fileAnswer op s).1 := by
  cases op with
  | consume command action params => exact fun denied => consume_refusal
  | file op => exact absurd h id

/-- A handler that refuses has no effect in any world and answers with an error. -/
theorem NodeHandler.Refuses.run {raised : Prop} {params : Dict} {handler : NodeHandler}
    (h : handler.Refuses raised params) (world : World ω) (s : UsedIds × ω) :
    (handler.run world params s).Refused raised := by
  cases handler with
  | ha handler =>
    obtain ⟨response, hresponds, herror⟩ := h
    have hrun : (NodeHandler.ha handler).run world params s = ⟨some response, []⟩ := by
      show Outcome.mk _ _ = _
      rw [hresponds]
      rfl
    rw [hrun]
    constructor
    · rfl
    · intro other hother
      rwa [← Option.some.inj hother]
    · exact fun hnone => absurd hnone (Option.some_ne_none _)
  | file handler =>
    have hops : ∀ e ∈ (Prog.exec world.fileAnswer (handler params) s).2.1, IsFileApproval e.1 :=
      fun e he => h.asks.of_mem_exec he
    have hend := h.ends.of_exec (settled_fileAnswer world) s hops
    constructor
    · exact List.filterMap_eq_nil_iff.mpr fun e he => fileEffect_eq_none_iff.mpr (hops e he)
    · intro response hresponse
      rw [eq_ok_of_toOption hresponse] at hend
      exact hend
    · intro hnone
      obtain ⟨exc, hexc⟩ := eq_error_of_toOption hnone
      rw [hexc] at hend
      exact hend

/-- A static refusal of a call without an effect has its ground in `T`. -/
theorem NodeHandler.Quiet.run {T : Prop} {params : Dict} {handler : NodeHandler}
    (h : handler.Quiet T params) (world : World ω) (s : UsedIds × ω) {response : Json}
    (hsilent : (handler.run world params s).effects = [])
    (hresponse : (handler.run world params s).response = some response)
    (hstatic : StaticRefusal response) : T := by
  cases handler with
  | ha handler =>
    have hops : ∀ e ∈ (Prog.exec world.answer (handler params) s).2.1, IsApproval e.1 :=
      fun e he => haEffect_eq_none_iff.mp (List.filterMap_eq_nil_iff.mp hsilent e he)
    have hend := Prog.Ends.of_exec (settled_answer world) h s hops
    exact hend response (eq_ok_of_toOption hresponse) hstatic
  | file handler =>
    have hops : ∀ e ∈ (Prog.exec world.fileAnswer (handler params) s).2.1, IsFileApproval e.1 :=
      fun e he => fileEffect_eq_none_iff.mp (List.filterMap_eq_nil_iff.mp hsilent e he)
    have hend := Prog.Ends.of_exec (settled_fileAnswer world) h s hops
    exact hend response (eq_ok_of_toOption hresponse) hstatic

end

end HassNode.PreflightMirror
