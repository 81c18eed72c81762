import MeisterStack.Agent.RouterCommands
import MeisterStack.ControllerApi.NatRules

/-!
# A command through a sibling replica

A replica without a node's session hands the command to the one that has it, as a JSON document. The
answer comes back through a REST status.
-/

namespace MeisterStack.ClusterController.Dispatch

open ControllerApi.NatRules String List

inductive NodeCommand where
  | prepareMigration (id specJson migrationId : String)
  | migrateOut (id peer migrationId : String)
  | cleanupMigration (id migrationId : String) (source : Bool)
  | destroy (id : String)
  | provisionVolume (id specJson : String)
  | ensureRouter (id physnet externalAddr externalGateway : String) (vni : Nat)
      (internalAddr : String) (nats : List NatRule) (active soleGateway : Bool)
  | destroyRouter (id : String)
  | forgetVolume (id : String)
  | dropImage (name uid : String)

inductive Op where
  | prepareMigration (id specJson listen migrationId : String)
  | migrateOut (id peer migrationId : String)
  | cleanupMigration (id migrationId : String) (source : Bool)
  | destroy (id : String)
  | provisionVolume (id specJson fromSnapshot : String)
  | ensureRouter (router : Agent.RouterCommands.EnsureRouter)
  | destroyRouter (id : String)
  | forgetVolume (id : String)
  | dropImage (name uid : String)

def natWord : NatKind → String
  | .snat => "snat"
  | .dnatAndSnat => "dnat_and_snat"
  | .routed => "routed"

def NodeCommand.intoOp : NodeCommand → Op
  | prepareMigration id specJson migrationId => .prepareMigration id specJson "" migrationId
  | migrateOut id peer migrationId => .migrateOut id peer migrationId
  | cleanupMigration id migrationId source => .cleanupMigration id migrationId source
  | destroy id => .destroy id
  | provisionVolume id specJson => .provisionVolume id specJson ""
  | ensureRouter id physnet externalAddr externalGateway vni internalAddr nats active soleGateway =>
    .ensureRouter ⟨id, physnet, externalAddr, externalGateway, vni, internalAddr,
      nats.map fun r => ⟨natWord r.kind, r.externalIp, r.logicalIp⟩, active, soleGateway⟩
  | destroyRouter id => .destroyRouter id
  | forgetVolume id => .forgetVolume id
  | dropImage name uid => .dropImage name uid

structure Refusal where
  message : String
  reason : String

inductive Cause where
  | said (text : String)
  | refusal (r : Refusal)

def Cause.text : Cause → String
  | said text => text
  | refusal r => r.message

/-- The causes of an error, the outermost first. -/
abbrev Error := List Cause

def inChain (e : Error) : Option Refusal :=
  e.findSome? fun
    | .refusal r => some r
    | .said _ => none

def saying (e : Error) (word : String) : Option Refusal := (inChain e).filter (·.reason = word)

inductive Holder where
  | here
  | sibling (endpoint : String)
  | nowhere (why : String)

def holder (hasSession : Bool) (endpoint : Option String) (forwarded : Bool) : Holder :=
  if hasSession then .here
  else if forwarded then
    .nowhere ("the replica this request was forwarded to does not hold the node's session " ++
      "either; the node has moved, try again")
  else
    match endpoint.filter (· ≠ "") with
    | some endpoint => .sibling endpoint
    | none => .nowhere ("no replica of this cluster is holding this node's session, or the one " ++
        "that is could not say where to reach it (advertise_api)")

/-- The documents of the hop as serde writes and reads them. -/
structure Codec (β : Type) where
  size : β → Nat
  ofCommand : NodeCommand → β
  command : β → Option NodeCommand
  command_ofCommand : ∀ c, command (ofCommand c) = some c
  ofStatus : Refusal → β
  status : β → Option Refusal
  status_ofStatus : ∀ r, status (ofStatus r) = some r
  lossy : β → String

/-- A node on its session, to which operations are sent for an ack or a refusal. -/
abbrev Agent (β : Type) := Op → Except Refusal β

structure Answer (β : Type) where
  code : Nat
  body : β

def typedRefusals : List String := ["CannotServe", "CannotSend"]

/-- The limit of the framework for the body of a request. -/
def bodyLimit : Nat := 2097152

variable {β : Type} (codec : Codec β) (node : String) (session : Option (Agent β))

/-- The operations that reach the node, and what the caller is told. -/
def sendCommand (op : Op) : List Op × Except Error β :=
  match session with
  | none => ([], .error [.said s!"node {node} has no active session"])
  | some agent =>
    ([op], (agent op).mapError fun r => [.said s!"agent {node} rejected command", .refusal r])

def apiError (e : Error) : Nat × Refusal :=
  match (inChain e).filter (·.reason ∈ typedRefusals) with
  | some r => (409, r)
  | none => (503, ⟨": ".intercalate (e.map Cause.text), "Unavailable"⟩)

def serveForwarded (forwarded : Bool) (cmd : NodeCommand) :
    List Op × Except (Nat × Refusal) β :=
  if !forwarded then ([], .error (400, ⟨"this route is how one replica of this cluster asks " ++
    s!"another to reach node {node}; a request that is not a forward (x-meister-forwarded) " ++
    "has no business here", "BadRequest"⟩))
  else
    match holder session.isSome none true with
    | .here => (sendCommand node session cmd.intoOp).map id (·.mapError apiError)
    | .sibling why | .nowhere why => ([], .error (503, ⟨why, "Unavailable"⟩))

def respond : Except (Nat × Refusal) β → Answer β
  | .ok payload => ⟨if codec.size payload = 0 then 204 else 200, payload⟩
  | .error (code, refusal) => ⟨code, codec.ofStatus refusal⟩

def nodeCommand (forwarded : Bool) (body : β) : List Op × Answer β :=
  -- the two refusals of the framework, texts without a reason
  let refused (code : Nat) (why : String) := respond codec (.error (code, ⟨why, ""⟩))
  if bodyLimit < codec.size body then
    ([], refused 413 "Failed to buffer the request body: length limit exceeded")
  else
    match codec.command body with
    | none => ([], refused 422 "Failed to deserialize the JSON body into the target type")
    | some cmd => (serveForwarded node session forwarded cmd).map id (respond codec)

def refusalIn (body : β) : Refusal := (codec.status body).getD ⟨codec.lossy body, ""⟩

/-- A status as it is printed, for the codes the route answers with. -/
def statusLine : Nat → String
  | 400 => "400 Bad Request"
  | 409 => "409 Conflict"
  | 413 => "413 Payload Too Large"
  | 422 => "422 Unprocessable Entity"
  | 503 => "503 Service Unavailable"
  | code => toString code

def ofAnswer (endpoint : String) (answer : Answer β) : Except Error β :=
  if 200 ≤ answer.code ∧ answer.code < 300 then .ok answer.body
  else
    let refusal := refusalIn codec answer.body
    let line := s!"the replica at {endpoint} answered " ++ statusLine answer.code
    if refusal.reason ∈ typedRefusals then .error [.said line, .refusal refusal]
    else .error [.said s!"{line}: {refusal.message}"]

/-- `replicas` are the sessions the other replicas hold with the node, by endpoint. -/
def deliver (replicas : String → Option (Agent β))
    (endpoint : Option String) (cmd : NodeCommand) : List Op × Except Error β :=
  match holder session.isSome endpoint false with
  | .here => sendCommand node session cmd.intoOp
  | .sibling endpoint =>
    (nodeCommand codec node (replicas endpoint) true (codec.ofCommand cmd)).map id
      (ofAnswer codec endpoint)
  | .nowhere why => ([], .error [.said why])

/-- The callers see no difference: the same payload, or the same word with the same message. -/
def Agrees : Except Error β → Except Error β → Prop
  | .ok payload, .ok payload' => payload = payload'
  | .error e, .error e' => ∀ word ∈ typedRefusals, saying e word = saying e' word
  | _, _ => False

theorem holder_forwarded (hasSession endpoint e) :
    holder hasSession endpoint true ≠ .sibling e := by
  cases hasSession <;> simp [holder]

variable {codec node} {cmd : NodeCommand} {endpoint : String}

theorem deliver_sibling {replicas} (hendpoint : endpoint ≠ "") :
    deliver codec node none replicas (some endpoint) cmd =
      (nodeCommand codec node (replicas endpoint) true (codec.ofCommand cmd)).map id
        (ofAnswer codec endpoint) := by
  simp [deliver, holder, Option.filter, hendpoint]

theorem ofAnswer_ok (payload) :
    ofAnswer codec endpoint (respond codec (.ok payload)) = .ok payload := by
  apply if_pos
  simp only [respond]
  split_ifs <;> decide

theorem ofAnswer_error (code r) (hcode : ¬(200 ≤ code ∧ code < 300)) :
    let line := s!"the replica at {endpoint} answered " ++ statusLine code
    ofAnswer codec endpoint (respond codec (.error (code, r))) =
      if r.reason ∈ typedRefusals then .error [.said line, .refusal r]
      else .error [.said s!"{line}: {r.message}"] := by
  simp only [ofAnswer, respond, refusalIn, codec.status_ofStatus, Option.getD_some, if_neg hcode]

theorem agrees_rejected (line r) :
    Agrees (.error [.said line, .refusal r])
      (ofAnswer codec endpoint (respond codec (.error (apiError [.said line, .refusal r])))) := by
  have hchain : inChain [.said line, .refusal r] = some r := rfl
  by_cases htyped : r.reason ∈ typedRefusals
  · have hword : apiError [.said line, .refusal r] = (409, r) := by
      rw [apiError, hchain, Option.filter_some, if_pos (decide_eq_true htyped)]
    rw [hword, ofAnswer_error _ _ (by decide), if_pos htyped]
    exact fun _ _ => rfl
  · have hline : apiError [.said line, .refusal r] =
        (503, ⟨": ".intercalate [line, r.message], "Unavailable"⟩) := by
      rw [apiError, hchain, Option.filter_some, if_neg (by simpa using htyped)]
      rfl
    rw [hline, ofAnswer_error _ _ (by decide),
      if_neg (show "Unavailable" ∉ typedRefusals by decide)]
    intro word hword
    have hne : r.reason ≠ word := fun heq => htyped (heq ▸ hword)
    rw [saying, hchain, Option.filter_some, if_neg (by simpa using hne)]
    rfl

/--
A command whose document is within the limit for a request reaches the node through a sibling as
the same operation, with the same payload or the same typed refusal for the caller, and a
forwarded request is never passed on.
-/
theorem forward_transparent (agent : Agent β) (replicas : String → Option (Agent β))
    (hendpoint : endpoint ≠ "") (hholds : replicas endpoint = some agent)
    (hsize : codec.size (codec.ofCommand cmd) ≤ bodyLimit) :
    let here := deliver codec node (some agent) replicas none cmd
    let there := deliver codec node none replicas (some endpoint) cmd
    here.1 = [cmd.intoOp] ∧ there.1 = [cmd.intoOp] ∧ Agrees here.2 there.2 ∧
      ∀ hasSession known e, holder hasSession known true ≠ .sibling e := by
  have hthere : deliver codec node none replicas (some endpoint) cmd =
      (sendCommand node (some agent) cmd.intoOp).map id fun result =>
        ofAnswer codec endpoint (respond codec (result.mapError apiError)) := by
    simp only [deliver_sibling hendpoint, hholds, nodeCommand, if_neg (Nat.not_lt.mpr hsize),
      codec.command_ofCommand]
    rfl
  refine ⟨rfl, by rw [hthere]; rfl, ?_, holder_forwarded⟩
  rw [hthere]
  change Agrees ((agent cmd.intoOp).mapError _)
    (ofAnswer codec endpoint (respond codec (((agent cmd.intoOp).mapError _).mapError apiError)))
  cases agent cmd.intoOp with
  | ok payload =>
    change Agrees (.ok payload) (ofAnswer codec endpoint (respond codec (.ok payload)))
    rw [ofAnswer_ok]
    rfl
  | error r => exact agrees_rejected _ r

theorem ofAnswer_refused (code r payload) (hcode : 300 ≤ code) :
    ofAnswer codec endpoint (respond codec (.error (code, r))) ≠ .ok payload := by
  rw [ofAnswer_error _ _ (by omega)]
  split_ifs <;> simp

theorem ofAnswer_served {result : Except Error β} {payload}
    (h : ofAnswer codec endpoint (respond codec (result.mapError apiError)) = .ok payload) :
    result = .ok payload := by
  cases result with
  | ok payload' => exact (ofAnswer_ok payload').symm.trans h
  | error e =>
    refine absurd h (ofAnswer_refused (apiError e).1 (apiError e).2 payload ?_)
    unfold apiError
    split <;> simp

/-- A command is sent at most once, whichever way it goes, and a caller who is told that it
succeeded has the answer that the node gave to it. -/
theorem deliver_at_most_once (session : Option (Agent β)) (replicas : String → Option (Agent β))
    (known : Option String) :
    let sent := deliver codec node session replicas known cmd
    (sent.1 = [] ∨ sent.1 = [cmd.intoOp]) ∧ ∀ payload, sent.2 = .ok payload →
      sent.1 = [cmd.intoOp] ∧ ∃ agent, agent cmd.intoOp = .ok payload ∧
        (session = some agent ∨ ∃ e, known = some e ∧ replicas e = some agent) := by
  have hanswer (agent : Agent β) {payload}
      (h : (sendCommand node (some agent) cmd.intoOp).2 = .ok payload) :
      agent cmd.intoOp = .ok payload := by
    cases hop : agent cmd.intoOp <;> simp_all [sendCommand, Except.mapError]
  rcases session with - | agent
  · rcases known with - | e
    · exact ⟨.inl rfl, nofun⟩
    by_cases he : e = ""
    · subst he
      exact ⟨.inl rfl, nofun⟩
    simp only [deliver_sibling he, nodeCommand, codec.command_ofCommand]
    split_ifs
    · exact ⟨.inl rfl, fun payload h => absurd h (ofAnswer_refused 413 _ payload (by decide))⟩
    cases hagent : replicas e with
    | none =>
      exact ⟨.inl rfl, fun payload h => absurd h (ofAnswer_refused 503 _ payload (by decide))⟩
    | some agent =>
      exact ⟨.inr rfl, fun payload h =>
        ⟨rfl, agent, hanswer agent (ofAnswer_served h), .inr ⟨e, rfl, hagent⟩⟩⟩
  · exact ⟨.inr rfl, fun payload h => ⟨rfl, agent, hanswer agent h, .inl rfl⟩⟩

/-- Documents as the values they stand for, by the length of their texts. -/
def values : Codec (NodeCommand ⊕ Refusal) where
  size
    | .inl (.prepareMigration a b c) | .inl (.migrateOut a b c) => (a ++ b ++ c).length
    | .inl (.cleanupMigration a b _) | .inl (.provisionVolume a b) | .inl (.dropImage a b)
    | .inr ⟨a, b⟩ => (a ++ b).length
    | .inl (.ensureRouter a b c d _ e ..) => (a ++ b ++ c ++ d ++ e).length
    | .inl (.destroy a) | .inl (.destroyRouter a) | .inl (.forgetVolume a) => a.length
  ofCommand := .inl
  command := Sum.getLeft?
  command_ofCommand _ := rfl
  ofStatus := .inr
  status := Sum.getRight?
  status_ofStatus _ := rfl
  lossy _ := ""

def full : Agent (NodeCommand ⊕ Refusal) := fun _ => .error ⟨"the pool is full", "CannotServe"⟩

theorem forward_transparent_full :
    Agrees (deliver values "a" (some full) (fun _ => some full) none (.destroy "v")).2
      (deliver values "a" none (fun _ => some full) (some "b:1") (.destroy "v")).2 :=
  (forward_transparent full _ (by decide) rfl (by decide)).2.2.1

/-- A longer document is refused by the sibling's route, and the node is never asked. -/
theorem forward_refuses_long :
    let cmd := .provisionVolume "v" (ofList (replicate 2097153 'a'))
    (deliver values "a" (some full) (fun _ => some full) none cmd).1 = [cmd.intoOp] ∧
      (deliver values "a" none (fun _ => some full) (some "b:1") cmd).1 = [] := by
  refine ⟨rfl, ?_⟩
  have hlong : bodyLimit < ("v" ++ ofList (replicate 2097153 'a')).length := by
    simp only [String.length_append, length_ofList, List.length_replicate]
    decide
  simp only [deliver_sibling (show "b:1" ≠ "" by decide), nodeCommand, values, if_pos hlong]
  rfl

end MeisterStack.ClusterController.Dispatch
