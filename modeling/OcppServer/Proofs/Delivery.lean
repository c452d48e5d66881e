import OcppServer.Spec

/-!
# What a command sends

Every way the server has of sending appends some messages to each connection (`deliver`), so a
command's notifications and its reply are one `deliver`. The commands of the source are the
effects of the specification, committed (`commands_commit`); no exception leaves
`handleRpcMessage`, so a message runs its command once, answers once, and never comes to the
fallback (`processMessage_eq`).
-/

namespace OcppServer

namespace WebServer

variable (rt : Runtime)

/-- Every connection sent its own messages. -/
def deliver (messages : ℤ → List Message) (s : WebServer) : WebServer :=
  { s with connections :=
      Dict.mapVal (fun id p => p.map (.sendAll rt (messages id))) s.connections }

theorem deliver_deliver (f g : ℤ → List Message) (s : WebServer) :
    (s.deliver rt f).deliver rt g = s.deliver rt fun id => f id ++ g id := by
  simp only [deliver, Dict.mapVal_mapVal]
  simp [SharedPtr.map, WebSocketConnection.sendAll, List.flatMap_append]

theorem deliver_nil (s : WebServer) : s.deliver rt (fun _ => []) = s := by
  have h : ∀ p : SharedPtr WebSocketConnection, p.map (.sendAll rt []) = p := by
    intro p
    simp [SharedPtr.map, WebSocketConnection.sendAll]
  simp only [deliver, h, Dict.mapVal_id]

theorem broadcast_eq_deliver (m : Message) (s : WebServer) :
    s.broadcast rt m = s.deliver rt fun _ => [m] := by
  simp [broadcast, deliver, WebSocketConnection.sendAll, WebSocketConnection.send, SharedPtr.map]

theorem sendToConnection_eq_deliver (id : ℤ) (m : Message) (s : WebServer) :
    s.sendToConnection rt id m = s.deliver rt fun j => if j = id then [m] else [] := by
  have h : Dict.modify id (SharedPtr.map (.send rt m)) s.connections
      = Dict.mapVal (fun j p => p.map (.sendAll rt (if j = id then [m] else [])))
          s.connections := by
    refine Dict.mapVal_congr fun e _ => ?_
    by_cases he : e.1 = id
    · simp [he, SharedPtr.map, WebSocketConnection.send, WebSocketConnection.sendAll]
    · simp [he, SharedPtr.map, WebSocketConnection.sendAll]
  simp only [sendToConnection, h, deliver]

theorem broadcastValueChange_eq_deliver (key value : Bytes) (s : WebServer) :
    s.broadcastValueChange rt key value = s.deliver rt fun _ => [valueChanged (key, value)] := by
  have h : cstr (lit "valueChanged") = lit "valueChanged" := by decide
  rw [broadcastValueChange, sendRpcNotification, broadcast_eq_deliver, h]
  rfl

/-- The effect's data taken over and its announcements made. -/
def commit (e : Effect) (s : WebServer) : WebServer :=
  WebServer.deliver rt (fun _ => e.announced.map valueChanged) { s with data := e.data }

theorem commit_pure (o : Outcome) (s : WebServer) (d : RpcData) :
    s.commit rt (.pure o d) = { s with data := d } := deliver_nil rt _

variable (amb : Ambient)

theorem handleSetValue_eq (params : Json) (s : WebServer) :
    s.handleSetValue rt params
      = ((Effect.setValue rt params s.data).result,
          s.commit rt (Effect.setValue rt params s.data)) := by
  unfold handleSetValue Effect.setValue
  rcases hk : params.stringMember? (lit "key") with _ | key
  · simp only [commit_pure]
    rfl
  rcases hv : params.find? (lit "value") with _ | value
  · simp only [commit_pure]
    rfl
  · simp only [broadcastValueChange_eq_deliver]
    cases value <;> rfl

theorem handleSetMaxPower_eq (params : Json) (s : WebServer) :
    s.handleSetMaxPower rt params
      = ((Effect.setMaxPower params s.data).result,
          s.commit rt (Effect.setMaxPower params s.data)) := by
  unfold handleSetMaxPower Effect.setMaxPower
  rcases params.intMember? (lit "value") with _ | maxPower
  · simp only [commit_pure]
    rfl
  · simp only []
    split_ifs
    · simp only [commit_pure]
      rfl
    · simp only [broadcastValueChange_eq_deliver]
      rfl

/-- A command returns its effect's outcome and commits the effect. -/
def Commits (c : Json → WebServer → Outcome × WebServer) (e : ℕ → Json → RpcData → Effect) :
    Prop :=
  ∀ params s, c params s
    = ((e s.clients params s.data).result, s.commit rt (e s.clients params s.data))

/-- The methods of the source are those of the specification, in the same order, and each commits
its effect. -/
theorem commands_commit :
    List.Forall₂ (fun c e => c.1 = e.1 ∧ Commits rt c.2 e.2)
      (commands rt amb) (Effect.commands rt amb) := by
  simp only [commands, Effect.commands, List.forall₂_cons, List.Forall₂.nil, and_true, true_and]
  refine ⟨?_, ?_, ?_, ?_, ?_, ?_, ?_, ?_, ?_, ?_, ?_, ?_⟩ <;> intro params s
  case refine_5 => exact handleSetValue_eq rt params s
  case refine_12 => exact handleSetMaxPower_eq rt params s
  case refine_9 =>
    simp only [handleStartCharging, broadcastValueChange_eq_deliver, deliver_deliver]
    rfl
  case refine_10 =>
    simp only [handleStopCharging, broadcastValueChange_eq_deliver, deliver_deliver]
    rfl
  case refine_11 =>
    simp only [handleResetSystem, broadcastValueChange_eq_deliver]
    rfl
  all_goals
    rw [commit_pure]
    rfl

theorem dispatch_eq (request : RpcRequest) (s : WebServer) :
    s.dispatch rt amb request = ((Effect.ofRequest rt amb s.clients request s.data).result,
      s.commit rt (Effect.ofRequest rt amb s.clients request s.data)) := by
  unfold dispatch Effect.ofRequest
  rcases Dict.lookup_forall₂ (k := request.method) (commands_commit rt amb) with
    ⟨h, h'⟩ | ⟨c, e, h, h', hR⟩
  · rw [h, h']
    simp only [commit_pure]
    rfl
  · rw [h, h']
    exact hR request.params s

/-- A message is one effect: committed, and answered on the connection it came from. -/
theorem handleRpcMessage_eq (id : ℤ) (message : Bytes) (s : WebServer) :
    s.handleRpcMessage rt amb id message = (.ok (), WebServer.deliver rt
      (fun j => produced (Effect.ofMessage rt amb s.clients message s.data) (j = id))
      { s with data := (Effect.ofMessage rt amb s.clients message s.data).1.data }) := by
  have hd : ∀ (l : List Message) (m : Message) (s : WebServer),
      (s.deliver rt fun _ => l).sendToConnection rt id m
        = s.deliver rt fun j => l ++ if j = id then [m] else [] := by
    intro l m s
    rw [sendToConnection_eq_deliver, deliver_deliver]
  unfold handleRpcMessage tryRpcMessage Effect.ofMessage
  rcases hp : parseRpcRequest rt message with what | request
  · have := hd [] (reply (-1) (.error what)) s
    rw [deliver_nil] at this
    simp only [produced, Effect.pure, List.map_nil, decide_eq_true_eq]
    exact congrArg _ this
  · simp only [dispatch_eq]
    rcases ho : (Effect.ofRequest rt amb s.clients request s.data).result with what | result <;>
      simp only [produced, ho, decide_eq_true_eq] <;>
      exact congrArg _ (hd _ _ _)

/-- The fallback is never run. -/
theorem processMessage_eq (handler : Option MessageHandler) (id : ℤ) (message : Bytes)
    (s : WebServer) :
    s.processMessage rt amb handler id message = WebServer.deliver rt
      (fun j => produced (Effect.ofMessage rt amb s.clients message s.data) (j = id))
      { s with data := (Effect.ofMessage rt amb s.clients message s.data).1.data } := by
  rw [processMessage, handleRpcMessage_eq]

end WebServer

end OcppServer
