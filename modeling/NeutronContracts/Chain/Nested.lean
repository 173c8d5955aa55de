/-
The stake manager inside the transactions of the chain.  The messages of a call
follow it immediately, each executed with its reply before the next one.  Calls
nest: a transaction or another contract calls several times, and a contract
that gets a message of the stake manager may call again.  A call that fails is
reverted together with everything it has called.
-/
import NeutronContracts.Chain.Mailbox
import NeutronContracts.Chain.Registry

namespace NeutronContracts

open StakeManager Fallible

/-- What has been posted, remembered to state properties: the payloads saved
so far in order, the packets sent with the payloads given for them, and the
packets whose answers were taken. -/
structure PostLog where
  saved : List SudoPayload
  sent : Map PacketId (Option SudoPayload)
  taken : List PacketId

namespace PostLog

def empty : PostLog := ⟨[], Map.empty, []⟩

/-- A call answers with messages. -/
def save (log : PostLog) (subs : List SubMsg) : PostLog :=
  { log with saved := log.saved ++ (packets subs).filterMap SubMsg.payload }

/-- A message is executed. -/
def send (log : PostLog) (id : PacketId) (sub : SubMsg) : PostLog :=
  if isPacket sub then { log with sent := log.sent.save id sub.payload }
  else log

/-- A call answers with messages, and all of them are executed. -/
def post (log : PostLog) (id : PacketId) (subs : List SubMsg) : PostLog :=
  subs.foldl (fun log sub => log.send id sub) (log.save subs)

/-- The answer to a packet is taken. -/
def take (log : PostLog) (id : PacketId) : PostLog :=
  { log with taken := id :: log.taken }

end PostLog

/-- A message that waits for its turn, with the call it comes from. -/
structure Outgoing where
  querier : Querier
  sender : String
  origin : ExecuteMsg
  sub : SubMsg

/-- A message to a contract, which may call others. -/
def callsContract (sub : SubMsg) : Bool :=
  match sub.msg with
  | .wasmExecute _ _ => true
  | .wasmInstantiate2 _ _ _ _ _ => true
  | _ => false

/-- A call that is being executed: the chain before it, and its messages that
are left.  A transaction, or the call of another contract, has none here. -/
structure Frame where
  world : World
  log : PostLog
  rest : List Outgoing

/-- The messages that are left. -/
def Frame.subs (frame : Frame) : List SubMsg := frame.rest.map (·.sub)

/-- The chain in the middle of a transaction, the innermost call first. -/
structure Nest where
  world : World
  log : PostLog
  frames : List Frame

namespace Nest

inductive Event
  /-- a later block -/
  | block (block : BlockInfo)
  /-- a transaction begins, or the call of another contract -/
  | enter
  /-- an account or a contract calls the stake manager -/
  | call (querier : Querier) (info : MessageInfo) (msg : ExecuteMsg)
  /-- the next message of the innermost call; `id` is the packet it sends, if
  it sends one -/
  | deliver (id : PacketId)
  /-- all messages of the innermost call are executed -/
  | finish
  /-- the innermost call fails -/
  | revert
  /-- an answer to a packet, also one that was answered before -/
  | answer (id : PacketId) (answer : Answer) (querier : Querier)
      (bankAccepts : Bool)
  /-- an opened channel, a query result, or a call of a token -/
  | other (action : Action)

/-- Contracts are called outside of the stake manager, and while a message
goes to one of them. -/
def mayCall (s : Nest) : Bool :=
  match s.frames with
  | [] => true
  | frame :: _ =>
      match frame.rest with
      | [] => true
      | out :: _ => callsContract out.sub

/-- Everything but the calls and the answers happens as on the chain. -/
def other (net : Network) (s : Nest) (action : Action) : Option Nest :=
  let act := (s.world.act net action).map fun w => { s with world := w }
  match action with
  | .execute _ _ _ _ => none
  | .answer _ _ _ _ => none
  | .openAck _ _ _ _ => if s.frames.isEmpty then act else none
  | .kvQueryResult _ _ => if s.frames.isEmpty then act else none
  | .token _ _ _ _ => if s.mayCall then act else none

def enter (s : Nest) : Option Nest :=
  if s.mayCall then some { s with frames := ⟨s.world, s.log, []⟩ :: s.frames }
  else none

def call (net : Network) (s : Nest) (querier : Querier) (info : MessageInfo)
    (msg : ExecuteMsg) : Option Nest :=
  if s.mayCall ∧ isAccount info.sender then
    match execute s.world.store querier (s.world.env net) info msg with
    | .error _ => none
    | .ok (store, rsp) =>
        some
          { world := { s.world with store := store }
            log := s.log.save rsp.messages
            frames := ⟨s.world, s.log, rsp.messages.map
              (⟨querier, info.sender, msg, ·⟩)⟩ :: s.frames }
  else none

def deliver (net : Network) (s : Nest) (id : PacketId) : Option Nest :=
  match s.frames with
  | [] => none
  | frame :: frames =>
      match frame.rest with
      | [] => none
      | out :: rest =>
          (World.deliver net
            ⟨out.querier, true, some (id, out.sender, out.origin)⟩ s.world
            out.sub).map fun w =>
              { world := w
                log := s.log.send id out.sub
                frames := { frame with rest := rest } :: frames }

/-- An answer whose callback fails leaves everything as it was. -/
def answer (net : Network) (s : Nest) (id : PacketId) (answer : Answer)
    (querier : Querier) (bankAccepts : Bool) : Option Nest :=
  if s.frames.isEmpty then
    match World.commit net ⟨querier, bankAccepts, none⟩
        { s.world with pending := s.world.pending.remove id }
        (sudoEntry s.world.store (s.world.env net)
          (World.answerMsg id answer)) with
    | none => some s
    | some w => some { s with world := w, log := s.log.take id }
  else none

def step (net : Network) (s : Nest) : Event → Option Nest
  | .block block =>
      if s.frames.isEmpty ∧ s.world.block.height ≤ block.height ∧
          s.world.block.time ≤ block.time then
        some { s with world := { s.world with block := block } }
      else none
  | .enter => s.enter
  | .call querier info msg => s.call net querier info msg
  | .deliver id => s.deliver net id
  | .finish =>
      match s.frames with
      | [] => none
      | frame :: frames =>
          if frame.rest.isEmpty then some { s with frames := frames }
          else none
  | .revert =>
      match s.frames with
      | [] => none
      | frame :: frames => some ⟨frame.world, frame.log, frames⟩
  | .answer id answer querier bankAccepts =>
      s.answer net id answer querier bankAccepts
  | .other action => s.other net action

/-- The chain right after the stake manager has been instantiated. -/
def genesis (block : BlockInfo) (info : MessageInfo) (lsdTokenCodeId : Nat) :
    Nest :=
  ⟨World.genesis block info lsdTokenCodeId, .empty, []⟩

/-! ### The transactions of the chain -/

/-- A call whose `n` messages are executed right away; `id` is the packet it
sends, if it sends one. -/
def transaction (querier : Querier) (info : MessageInfo) (msg : ExecuteMsg)
    (n : Nat) (id : PacketId) : List Event :=
  .call querier info msg :: (List.replicate n (.deliver id) ++ [.finish])

variable {net : Network} {w w' : World} {log : PostLog}
  {frame : Frame} {frames : List Frame} {querier : Querier}
  {info : MessageInfo} {msg : ExecuteMsg} {id : PacketId} {s : Nest}

/-- The messages of a call are delivered one after the other. -/
theorem exec_delivers {subs : List SubMsg}
    (h : World.deliverAll net ⟨querier, true, some (id, info.sender, msg)⟩ w
      subs = some w') :
    Transition.exec (step net) ⟨w, log, { frame with
        rest := subs.map (⟨querier, info.sender, msg, ·⟩) } :: frames⟩
        (List.replicate subs.length (.deliver id)) =
      some ⟨w', subs.foldl (fun log sub => log.send id sub) log,
        { frame with rest := [] } :: frames⟩ := by
  induction subs generalizing w log with
  | nil =>
      obtain rfl := Option.some.inj h
      rfl
  | cons sub rest ih =>
      obtain ⟨middle, hfirst, hrest⟩ := World.deliverAll_cons h
      rw [List.length_cons, List.replicate_succ, Transition.exec_cons_eq_some]
      refine ⟨_, ?_, ih hrest⟩
      simp only [step, deliver, List.map_cons, hfirst, Option.map_some]

/-- A call goes through wherever contracts are called. -/
theorem exec_call {store : Storage} {rsp : Response}
    (hcalls : s.mayCall = true) (haccount : isAccount info.sender = true)
    (hcall : execute s.world.store querier (s.world.env net) info msg =
      .ok (store, rsp))
    (hdeliver : World.deliverAll net
      ⟨querier, true, some (id, info.sender, msg)⟩
      { s.world with store := store } rsp.messages = some w') :
    Transition.exec (step net) s
        (transaction querier info msg rsp.messages.length id) =
      some ⟨w', s.log.post id rsp.messages, s.frames⟩ := by
  have hstart : step net s (.call querier info msg) =
      some ⟨{ s.world with store := store }, s.log.save rsp.messages,
        ⟨s.world, s.log, rsp.messages.map
          (⟨querier, info.sender, msg, ·⟩)⟩ :: s.frames⟩ := by
    simp only [step, call, hcalls, haccount, hcall]
    rfl
  have hdelivers := @exec_delivers net { s.world with store := store } w'
    (s.log.save rsp.messages) ⟨s.world, s.log, []⟩ s.frames querier info msg
    id rsp.messages hdeliver
  refine Transition.exec_cons_eq_some.mpr ⟨_, hstart, ?_⟩
  exact Transition.exec_append_eq_some.mpr ⟨_, hdelivers, rfl⟩

end Nest

end NeutronContracts
