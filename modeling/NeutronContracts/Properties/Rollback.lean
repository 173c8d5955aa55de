/-
A step of the era cycle whose packet fails leaves no trace.  Stakes, unstakes
and share credits depend on the chain only through a view that forgets the
era, the status and the snapshot of every pool and one unanswered packet.
Sending a step changes nothing of this view, and its failure restores the two
fields that the view forgets and the snapshot is not asked about.
-/
import NeutronContracts.Chain.EraProtocol

namespace NeutronContracts

open StakeManager Fallible

/-! ### What users see -/

/-- A pool without the fields that tell how far its era has come. -/
def StakeManager.PoolInfo.timeless (p : PoolInfo) : PoolInfo :=
  { p with
    era := 0
    status := .activeEnded
    eraSnapshot := ⟨0, 0, 0, 0, 0, 0⟩ }

/-- An unstake record without its era. -/
def StakeManager.UnstakeInfo.timeless (unstakeInfo : UnstakeInfo) :
    UnstakeInfo :=
  { unstakeInfo with era := 0 }

/-- The part of the storage that stakes, unstakes and share credits read and
write, without the payload of the packet `id`. -/
def StakeManager.Storage.userView (id : PacketId) (store : Storage) :
    Storage :=
  { Storage.blank with
    pools := store.pools.view PoolInfo.timeless
    unstakesOfIndex := store.unstakesOfIndex.view UnstakeInfo.timeless
    unstakesIndexForUser := store.unstakesIndexForUser
    sudoPayload := store.sudoPayload.remove id }

/-- The result of a call as users see it. -/
def resultView (id : PacketId) (result : Storage × Response) :
    Storage × Response :=
  (result.1.userView id, result.2)

section

variable {store : Storage} {id : PacketId} {info : MessageInfo}
  {payload : SudoPayload} {a : String}

/-- The record of a pool is read as users see it. -/
theorem load_pool_view {F G : PoolInfo → NeutronResult (Storage × Response)}
    (h : ∀ p, store.pools a = some p →
      F p.timeless = (G p).map (resultView id)) :
    (load ((store.userView id).pools a) >>= F) =
      (load (store.pools a) >>= G).map (resultView id) := by
  change (load ((store.pools a).map PoolInfo.timeless) >>= F) = _
  cases hp : store.pools a with
  | none => rfl
  | some p => exact h p hp

theorem userView_savePool (p : PoolInfo) :
    (store.savePool a p).userView id =
      (store.userView id).savePool a p.timeless := by
  simp [Storage.userView, Storage.savePool, Map.view_save]

theorem userView_saveUnstake (index : Nat) (unstakeInfo : UnstakeInfo) :
    (store.saveUnstake a index unstakeInfo).userView id =
      (store.userView id).saveUnstake a index unstakeInfo.timeless := by
  simp [Storage.userView, Storage.saveUnstake, Map.view_save]

theorem userView_saveUserIndexes (user : String) (indexes : List Nat) :
    (store.saveUserIndexes user a indexes).userView id =
      (store.userView id).saveUserIndexes user a indexes := rfl

theorem ok_resultView {result viewed : Storage × Response}
    (hstore : viewed.1 = result.1.userView id) (hrsp : viewed.2 = result.2) :
    (pure viewed : NeutronResult _) =
      (pure result : NeutronResult _).map (resultView id) :=
  congrArg Except.ok (Prod.ext hstore hrsp)

/-- A stake is the same for all who see the same. -/
theorem executeStake_view {user : String} :
    executeStake (store.userView id) user a info =
      (executeStake store user a info).map (resultView id) := by
  refine load_pool_view fun p _ => bind_eq_map fun _ _ => ?_
  split
  case h_1 coin _ =>
      refine bind_eq_map fun _ _ => bind_eq_map fun _ _ => ?_
      refine bind_eq_map fun active _ => bind_eq_map fun bond _ => ?_
      refine bind_eq_map fun scaled _ => bind_eq_map fun minted _ => ?_
      refine bind_eq_map fun total _ => ok_resultView ?_ rfl
      rw [userView_savePool]
      rfl
  case h_2 => rfl

/-- So is an unstake. -/
theorem executeUnstake_view {amount : Nat} :
    executeUnstake (store.userView id) info amount a =
      (executeUnstake store info amount a).map (resultView id) := by
  refine bind_eq_map fun _ _ => load_pool_view fun p _ => ?_
  refine bind_eq_map fun _ _ => bind_eq_map fun fee _ => ?_
  refine bind_eq_map fun burned _ => bind_eq_map fun _ _ => ?_
  refine bind_eq_map fun scaled _ => bind_eq_map fun tokens _ => ?_
  refine bind_eq_map fun index _ => bind_eq_map fun unbond _ => ?_
  refine bind_eq_map fun active _ => bind_eq_map fun total _ => ?_
  refine bind_eq_map fun _ _ => ok_resultView ?_ rfl
  rw [userView_saveUserIndexes, userView_savePool, userView_saveUnstake]
  rfl

/-- So is the credit of a share stake. -/
theorem sudoStakeLsmCallback_view :
    sudoStakeLsmCallback (store.userView id) payload =
      (sudoStakeLsmCallback store payload).map (resultView id) := by
  unfold sudoStakeLsmCallback
  split
  case h_1 =>
      refine bind_eq_map fun tokens _ => bind_eq_map fun shares _ => ?_
      refine load_pool_view fun p _ => ?_
      refine bind_eq_map fun active _ => bind_eq_map fun scaled _ => ?_
      refine bind_eq_map fun minted _ => bind_eq_map fun total _ => ?_
      refine ok_resultView ?_ rfl
      rw [userView_savePool]
      rfl
  case h_2 => rfl

/-- And the refund of one. -/
theorem sudoStakeLsmFailedCallback_view :
    sudoStakeLsmFailedCallback (store.userView id) payload =
      (sudoStakeLsmFailedCallback store payload).map (resultView id) := by
  unfold sudoStakeLsmFailedCallback
  split
  case h_1 => exact bind_eq_map fun _ _ => rfl
  case h_2 => rfl

end

/-! ### Steps that users take -/

/-- Messages whose delivery reads and writes nothing but tokens. -/
def isPlain (sub : SubMsg) : Bool :=
  match sub.msg with
  | .wasmExecute _ _ => true
  | .bankSend _ _ => true
  | _ => false

namespace World

variable {net : Network} {w w' : World} {ev : Event} {a : String}
  {id : PacketId}

/-- What users see of the chain, apart from the packet `id`. -/
def userView (id : PacketId) (w : World) : World where
  block := w.block
  store := w.store.userView id
  tokens := w.tokens
  watched := Map.empty
  nextQueryId := 0
  pending := w.pending.remove id
  used := []

theorem runToken_view {addrValidate : String → Bool}
    {address sender : String} {msg : LsdToken.ExecuteMsg} :
    (w.userView id).runToken addrValidate address sender msg =
      (w.runToken addrValidate address sender msg).map (userView id) := by
  unfold runToken
  simp only [userView]
  cases w.tokens address with
  | none => rfl
  | some token =>
      dsimp only
      cases LsdToken.execute token ⟨w.block, addrValidate⟩ sender msg <;> rfl

theorem deliver_view {delivery : Delivery} {sub : SubMsg}
    (hplain : isPlain sub = true) :
    deliver net delivery (w.userView id) sub =
      (deliver net delivery w sub).map (userView id) := by
  obtain ⟨msg, replyOnSuccess, payload⟩ := sub
  cases msg with
  | wasmExecute address msg => exact runToken_view
  | bankSend toAddress amount =>
      simp only [deliver]
      split <;> rfl
  | _ => simp [isPlain] at hplain

/-- The messages of users are delivered the same way for all who see the
same. -/
theorem deliverAll_view {delivery : Delivery} {subs : List SubMsg}
    (hplain : ∀ sub ∈ subs, isPlain sub = true) :
    deliverAll net delivery (w.userView id) subs =
      (deliverAll net delivery w subs).map (userView id) := by
  induction subs generalizing w with
  | nil => rfl
  | cons sub rest ih =>
      simp only [deliverAll, Transition.exec] at ih ⊢
      rw [deliver_view (hplain sub List.mem_cons_self)]
      cases deliver net delivery w sub with
      | none => rfl
      | some next =>
          exact ih fun sub hsub => hplain sub (List.mem_cons_of_mem _ hsub)

theorem commit_view {delivery : Delivery}
    {result : NeutronResult (Storage × Response)}
    (hplain : ∀ store rsp, result = .ok (store, rsp) →
      ∀ sub ∈ rsp.messages, isPlain sub = true) :
    (w.userView id).commit net delivery (result.map (resultView id)) =
      (w.commit net delivery result).map (userView id) := by
  cases result with
  | error e => rfl
  | ok result =>
      obtain ⟨store, rsp⟩ := result
      exact deliverAll_view (w := { w with store := store })
        (hplain store rsp rfl)

/-- A stake, an unstake, the answer to a share transfer, or a call of a token
by one of its holders. -/
def UserOperation (w : World) (ev : Event) : Prop :=
  match ev.action with
  | .execute _ _ (.stake _ _) _ => True
  | .execute _ _ (.unstake _ _) _ => True
  | .answer id _ _ _ => ∃ a, w.Unanswered a .stakeLsm id
  | .token _ _ _ _ => True
  | _ => False

theorem userView_pending {other : PacketId} {packet : Packet}
    (h : (w.userView id).pending other = some packet) :
    other ≠ id ∧ w.pending other = some packet := by
  by_cases hother : other = id
  · rw [hother] at h
    exact absurd h (by simp [userView])
  · exact ⟨hother, (Map.remove_of_ne hother).symm.trans h⟩

theorem execute_view {querier : Querier} {info : MessageInfo}
    {msg : ExecuteMsg} {sent : PacketId}
    (hcall : ∀ store : Storage,
      execute (store.userView id) querier (w.env net) info msg =
        (execute store querier (w.env net) info msg).map (resultView id))
    (hplain : ∀ store rsp,
      execute w.store querier (w.env net) info msg = .ok (store, rsp) →
      ∀ sub ∈ rsp.messages, isPlain sub = true) :
    (w.userView id).act net (.execute querier info msg sent) =
      (w.act net (.execute querier info msg sent)).map (userView id) := by
  simp only [act]
  split
  · rw [← commit_view hplain, ← hcall]
    rfl
  · rfl

theorem callback_view {store : Storage} {env : Env} {payload : SudoPayload}
    {answer : Answer} (htype : payload.txType = .stakeLsm) :
    callback (store.userView id) env payload answer =
      (callback store env payload answer).map (resultView id) := by
  cases answer with
  | success =>
      simp only [callback, sudoCallback, htype]
      exact sudoStakeLsmCallback_view
  | error =>
      simp only [callback, sudoFailedCallback, htype]
      exact sudoStakeLsmFailedCallback_view
  | timeout =>
      simp only [callback, sudoFailedCallback, htype]
      exact sudoStakeLsmFailedCallback_view

theorem callback_plain {store store' : Storage} {env : Env}
    {payload : SudoPayload} {answer : Answer} {rsp : Response}
    (htype : payload.txType = .stakeLsm)
    (h : callback store env payload answer = .ok (store', rsp)) :
    ∀ sub ∈ rsp.messages, isPlain sub = true := by
  have hfailed : sudoStakeLsmFailedCallback store payload =
      .ok (store', rsp) → ∀ sub ∈ rsp.messages, isPlain sub = true := by
    intro h
    obtain ⟨_, _, -, hmessages⟩ := sudoStakeLsmFailedCallback_ok h
    simp [hmessages, isPlain]
  cases answer with
  | success =>
      simp only [callback, sudoCallback, htype] at h
      obtain ⟨_, _, _, _, -, -, -, -, hmessages⟩ := sudoStakeLsmCallback_ok h
      simp [hmessages, isPlain]
  | error =>
      simp only [callback, sudoFailedCallback, htype] at h
      exact hfailed h
  | timeout =>
      simp only [callback, sudoFailedCallback, htype] at h
      exact hfailed h

theorem remove_comm {K V : Type} [DecidableEq K] {m : Map K V} {k k' : K} :
    (m.remove k).remove k' = (m.remove k').remove k := by
  funext other
  simp only [Map.remove_apply]
  split <;> split <;> rfl

theorem answer_view (hs : Sound net w) {other : PacketId} {answer : Answer}
    {querier : Querier} {bankAccepts : Bool}
    (hlsm : (w.userView id).Unanswered a .stakeLsm other) :
    (w.userView id).act net (.answer other answer querier bankAccepts) =
      (w.act net (.answer other answer querier bankAccepts)).map
        (userView id) := by
  obtain ⟨packet, payload, hviewed, hpayload, -, htype⟩ := hlsm
  obtain ⟨hne, hpending⟩ := userView_pending hviewed
  have hstored : w.store.sudoPayload other = some payload :=
    (hs.payload other packet hpending).trans hpayload
  have hseen : (w.store.userView id).sudoPayload other = some payload :=
    (Map.remove_of_ne hne).trans hstored
  have htaken : { w.store.userView id with
        sudoPayload := (w.store.userView id).sudoPayload.remove other } =
      (w.afterTake other).userView id := by
    simp only [Storage.userView, afterTake, remove_comm (k := id)]
  have hanswered : { w.userView id with
        pending := (w.userView id).pending.remove other } =
      userView id { w with pending := w.pending.remove other } := by
    simp only [userView, remove_comm (k := id)]
  simp only [act, hviewed, hpending, Option.map_some, hanswered]
  change some (Option.getD (commit net _ _ (sudoEntry (w.store.userView id)
    _ _)) _) = _
  rw [sudoEntry_of_payload hseen, sudoEntry_of_payload hstored, htaken,
    callback_view htype,
    commit_view fun store rsp h => callback_plain htype h, Option.getD_map]
  rfl

/-- A step of a user is seen as the same step. -/
theorem step_view (hs : Sound net w)
    (hop : UserOperation (w.userView id) ev) :
    (w.userView id).step net ev = (w.step net ev).map (userView id) := by
  unfold step
  change (if w.block.height ≤ ev.block.height ∧ w.block.time ≤ ev.block.time
    then (userView id { w with block := ev.block }).act net ev.action
    else none) = _
  split
  case isFalse => rfl
  case isTrue =>
      obtain ⟨block, action⟩ := ev
      cases action with
      | execute querier info msg sent =>
          cases msg with
          | stake user a =>
              refine execute_view (fun store => executeStake_view) ?_
              intro store rsp h
              obtain ⟨_, _, -, -, -, -, -, hmessages⟩ := executeStake_ok h
              simp [hmessages, isPlain]
          | unstake amount a =>
              refine execute_view (fun store => executeUnstake_view) ?_
              intro store rsp h
              obtain ⟨_, _, _, _, -, -, -, -, -, -, -, -, -, hmessages⟩ :=
                executeUnstake_ok h
              simp only [hmessages, List.mem_map]
              rintro sub ⟨msg, -, rfl⟩
              rfl
          | _ => exact False.elim hop
      | answer other answer querier bankAccepts =>
          obtain ⟨a, hlsm⟩ := hop
          exact answer_view (hs.at_block block) hlsm
      | token addrValidate address sender msg =>
          simp only [act]
          split
          · rfl
          · exact runToken_view
      | openAck icaId channelId counterpartyChannelId hostConnectionId =>
          exact False.elim hop
      | kvQueryResult queryId querier => exact False.elim hop

end World

/-! ### The steps and their failure -/

/-- The pool and the packet of a step of the era cycle. -/
def StakeManager.ExecuteMsg.eraStep : ExecuteMsg → Option (String × TxType)
  | .eraUpdate a => some (a, .eraUpdate)
  | .eraBond a _ => some (a, .eraBond)
  | .eraCollectWithdraw a => some (a, .eraCollectWithdraw)
  | .eraRebond a _ => some (a, .eraRebond)
  | _ => none

/-- The status of a pool that sends a step. -/
def StakeManager.TxType.sentIn : TxType → Option EraStatus
  | .eraUpdate => some .activeEnded
  | .eraBond => some .eraUpdateEnded
  | .eraCollectWithdraw => some .bondEnded
  | .eraRebond => some .withdrawEnded
  | _ => none

/-- By how much a step advances the era when it is sent. -/
def StakeManager.TxType.eraGain (txType : TxType) : Nat :=
  if txType = .eraUpdate then 1 else 0

/-- Messages whose delivery leaves all tokens alone. -/
def sparesTokens (sub : SubMsg) : Bool :=
  match sub.msg with
  | .wasmExecute _ _ => false
  | .wasmInstantiate2 _ _ _ _ _ => false
  | _ => true

/-- The storage after a step was sent looks to users as it did before, and the
step is noted in the era and in the status only. -/
structure StepSent (store store' : Storage) (a : String) (txType : TxType)
    (subs : List SubMsg) : Prop where
  pools : store'.pools.view PoolInfo.timeless =
    store.pools.view PoolInfo.timeless
  records : store'.unstakesOfIndex = store.unstakesOfIndex
  indexes : store'.unstakesIndexForUser = store.unstakesIndexForUser
  moved : ∃ p p', store.pools a = some p ∧ store'.pools a = some p' ∧
    txType.sentIn = some p.status ∧ p'.era = p.era + txType.eraGain
  calls : ∀ sub ∈ packets subs, Calls sub a txType
  tokens : ∀ sub ∈ subs, sparesTokens sub = true

section

variable {store store' : Storage} {querier : Querier} {env : Env}
  {info : MessageInfo} {msg : ExecuteMsg} {rsp : Response} {a : String}
  {txType : TxType} {p p' : PoolInfo}

/-- Saving a record that differs in its progress only is not seen. -/
theorem view_save_timeless {pools : Map String PoolInfo}
    (hp : pools a = some p) (hsame : p'.timeless = p.timeless) :
    (pools.save a p').view PoolInfo.timeless =
      pools.view PoolInfo.timeless := by
  rw [Map.view_save, hsame]
  exact Map.save_eq_self (by rw [Map.view_apply, hp]; rfl)

theorem StepSent.of_save {subs : List SubMsg} (hp : store.pools a = some p)
    (hpools : store'.pools = store.pools.save a p')
    (hrecords : store'.unstakesOfIndex = store.unstakesOfIndex)
    (hindexes : store'.unstakesIndexForUser = store.unstakesIndexForUser)
    (hsame : p'.timeless = p.timeless)
    (hstatus : txType.sentIn = some p.status)
    (hera : p'.era = p.era + txType.eraGain)
    (hcalls : ∀ sub ∈ packets subs, Calls sub a txType)
    (htokens : ∀ sub ∈ subs, sparesTokens sub = true) :
    StepSent store store' a txType subs :=
  ⟨hpools ▸ view_save_timeless hp hsame, hrecords, hindexes,
    ⟨p, p', hp, hpools ▸ Map.save_self, hstatus, hera⟩, hcalls, htokens⟩

/-- The packet of a step that sends nothing else. -/
theorem calls_single {payload : SudoPayload} {tx : SubmitTx}
    {replyId : Option Nat} (hpool : payload.poolAddr = a)
    (htype : payload.txType = txType) :
    ∀ sub ∈ packets [⟨.submitTx tx, replyId, some payload⟩],
      Calls sub a txType := by
  simp only [packets, isPacket, List.filter_cons, if_true, List.filter_nil,
    List.mem_singleton, forall_eq]
  exact ⟨payload, rfl, hpool, htype⟩

theorem executeEraUpdate_sent
    (h : executeEraUpdate store querier env info a = .ok (store', rsp))
    (hpackets : packets rsp.messages ≠ []) :
    StepSent store store' a .eraUpdate rsp.messages := by
  obtain ⟨p, icq, hp, hstatus, -, hicq, h⟩ := executeEraUpdate_ok h
  obtain ⟨_, _, _, _, rfl⟩ := getUpdatePoolIcqMsgs_ok hicq
  rcases h with ⟨-, -, hmessages⟩ | ⟨-, transfer, payload, -, -, hpool, htype,
    rfl, hmessages⟩
  · rw [hmessages] at hpackets
    exact absurd rfl hpackets
  · rw [hmessages]
    refine .of_save hp rfl rfl rfl rfl (congrArg some hstatus.symm) rfl ?_ ?_
    · rintro sub hsub
      obtain rfl := List.mem_singleton.mp hsub
      exact ⟨payload, rfl, hpool, htype⟩
    · simp [sparesTokens]

theorem executeEraBond_sent {selectVals : List String}
    (h : executeEraBond store querier env info a selectVals =
      .ok (store', rsp)) :
    StepSent store store' a .eraBond rsp.messages := by
  obtain ⟨p, next, _, tx, payload, hp, hstatus, hmsgs, -, hpool, htype, rfl,
    hmessages⟩ := executeEraBond_ok h
  obtain ⟨times, rfl⟩ := eraBondMsgs_store hmsgs
  rw [hmessages]
  refine .of_save hp rfl rfl rfl rfl (congrArg some hstatus.symm) rfl
    (calls_single hpool htype) ?_
  simp [sparesTokens]

theorem executeEraCollectWithdraw_sent
    (h : executeEraCollectWithdraw store querier info a = .ok (store', rsp))
    (hpackets : packets rsp.messages ≠ []) :
    StepSent store store' a .eraCollectWithdraw rsp.messages := by
  obtain ⟨p, _, _, _, _, hp, hstatus, -, -, h⟩ :=
    executeEraCollectWithdraw_ok h
  rcases h with ⟨-, -, rfl⟩ | ⟨-, tx, payload, -, hpool, htype, rfl,
    hmessages⟩
  · exact absurd rfl hpackets
  · rw [hmessages]
    refine .of_save hp rfl rfl rfl rfl (congrArg some hstatus.symm) rfl
      (calls_single hpool htype) ?_
    simp [sparesTokens]

theorem executeEraRebond_sent {selectVals : List String}
    (h : executeEraRebond store querier info a selectVals = .ok (store', rsp))
    (hpackets : packets rsp.messages ≠ []) :
    StepSent store store' a .eraRebond rsp.messages := by
  obtain ⟨p, hp, hstatus, h⟩ := executeEraRebond_ok h
  rcases h with ⟨-, -, rfl⟩ | ⟨-, _, tx, payload, -, -, hpool, htype, rfl,
    hmessages⟩
  · exact absurd rfl hpackets
  · rw [hmessages]
    refine .of_save hp (Map.save_eq_self hp).symm rfl rfl rfl
      (congrArg some hstatus.symm) rfl (calls_single hpool htype) ?_
    simp [sparesTokens]

/-- Whichever step sends a packet, users do not see it. -/
theorem execute_stepSent (hmsg : msg.eraStep = some (a, txType))
    (h : execute store querier env info msg = .ok (store', rsp))
    (hpackets : packets rsp.messages ≠ []) :
    StepSent store store' a txType rsp.messages := by
  cases msg with
  | eraUpdate b => cases hmsg; exact executeEraUpdate_sent h hpackets
  | eraBond b selectVals => cases hmsg; exact executeEraBond_sent h
  | eraCollectWithdraw b =>
      cases hmsg
      exact executeEraCollectWithdraw_sent h hpackets
  | eraRebond b selectVals => cases hmsg; exact executeEraRebond_sent h hpackets
  | _ => cases hmsg

/-- The failure of a step takes back what its sending has noted. -/
theorem EraAnswer.undone {height : Nat} {payload : SudoPayload}
    {answer : Answer} (h : EraAnswer height p payload answer p')
    (hkind : payload.txType.isEra = true) (hfailed : answer ≠ .success) :
    p'.timeless = p.timeless ∧ payload.txType.sentIn = some p'.status ∧
      p'.era + payload.txType.eraGain = p.era := by
  cases h with
  | eraUpdateFailed htype _ hera =>
      rw [htype]
      exact ⟨rfl, rfl, Nat.sub_add_cancel hera⟩
  | eraBondFailed htype => rw [htype]; exact ⟨rfl, rfl, rfl⟩
  | collectFailed htype => rw [htype]; exact ⟨rfl, rfl, rfl⟩
  | rebondFailed htype => rw [htype]; exact ⟨rfl, rfl, rfl⟩
  | setWithdrawFailed htype => simp [htype, TxType.isEra] at hkind
  | _ => exact absurd rfl hfailed

end

namespace World

variable {net : Network} {w w' w₁ w₂ w₃ : World} {ev fail : Event}
  {a : String} {id : PacketId} {txType : TxType} {p : PoolInfo}

theorem deliver_tokens {delivery : Delivery} {sub : SubMsg}
    (hspares : sparesTokens sub = true)
    (h : deliver net delivery w sub = some w') : w'.tokens = w.tokens := by
  obtain ⟨msg, replyOnSuccess, payload⟩ := sub
  cases msg with
  | wasmExecute address msg => simp [sparesTokens] at hspares
  | wasmInstantiate2 admin codeId msg label salt =>
      simp [sparesTokens] at hspares
  | bankSend toAddress amount =>
      simp only [deliver] at h
      split at h <;> cases h
      rfl
  | ibcTransfer transfer => exact (sendPacket_sent h).tokens
  | submitTx tx => exact (sendPacket_sent h).tokens
  | registerInterchainAccount connectionId icaId fee =>
      cases h
      rfl
  | registerInterchainQuery connectionId keys period =>
      exact (registerQuery_quiet h).2.1
  | updateInterchainQuery queryId newKeys newPeriod =>
      cases h
      exact (watch_quiet w newKeys).2.2

theorem deliverAll_tokens {delivery : Delivery} {subs : List SubMsg}
    (hspares : ∀ sub ∈ subs, sparesTokens sub = true)
    (h : deliverAll net delivery w subs = some w') :
    w'.tokens = w.tokens := by
  induction subs generalizing w with
  | nil =>
      cases h
      rfl
  | cons sub rest ih =>
      obtain ⟨middle, hfirst, hrest⟩ := deliverAll_cons h
      rw [ih (fun sub hsub => hspares sub (List.mem_cons_of_mem _ hsub)) hrest,
        deliver_tokens (hspares sub List.mem_cons_self) hfirst]

/-- A packet of a step of pool `a` has just been sent under `id`. -/
structure SubmitsStep (w : World) (ev : Event) (w' : World) (a : String)
    (txType : TxType) (id : PacketId) : Prop where
  call : ∃ querier info msg, ev.action = .execute querier info msg id ∧
    msg.eraStep = some (a, txType)
  fresh : w.pending id = none
  waits : (w'.pending id).isSome = true

/-- What is known once the packet of a step has been sent. -/
structure StepWaits (w : World) (block : BlockInfo) (w' : World) (a : String)
    (txType : TxType) (id : PacketId) : Prop where
  view : w'.userView id = userView id { w with block := block }
  moved : ∃ p p', w.store.pools a = some p ∧ w'.store.pools a = some p' ∧
    txType.sentIn = some p.status ∧ p'.era = p.era + txType.eraGain
  waits : w'.Unanswered a txType id

theorem stepWaits_of_submit (hs : Sound net w)
    (hstep : w.step net ev = some w')
    (hsubmit : SubmitsStep w ev w' a txType id) :
    StepWaits w ev.block w' a txType id := by
  obtain ⟨querier, info, msg, haction, hmsg⟩ := hsubmit.call
  obtain ⟨store, rsp, sent, hexec⟩ := executed_of_step hs hstep haction
  cases sent with
  | none =>
      have hsame : w'.pending = w.pending := hexec.sends.1
      have hwaits := hsubmit.waits
      rw [hsame, hsubmit.fresh] at hwaits
      cases hwaits
  | some sub =>
      have hpackets := hexec.outcome.packets
      have hsent := execute_stepSent hmsg hexec.call (by simp [hpackets])
      obtain ⟨payload, hpayload, hpool, htype⟩ :=
        hsent.calls sub (by simp [hpackets])
      obtain ⟨-, -, hpending⟩ := hexec.sends
      obtain ⟨p, p', hp, hp', hmoved⟩ := hsent.moved
      refine ⟨?_, ⟨p, p', hp, by rw [hexec.records.pools, hp'], hmoved⟩,
        ⟨_, payload, by rw [hpending, Map.save_self], hpayload, hpool,
          htype⟩⟩
      have hpayloads : w'.store.sudoPayload.remove id =
          w.store.sudoPayload.remove id := by
        funext other
        by_cases hother : other = id
        · rw [hother, Map.remove_self, Map.remove_self]
        · rw [Map.remove_of_ne hother, Map.remove_of_ne hother]
          refine hexec.otherPayloads other fun sub' hsub' => ⟨hother, ?_⟩
          obtain rfl := Option.mem_some.mp hsub'
          simp [hpayload]
      have hqueue : w'.pending.remove id = w.pending.remove id := by
        rw [hpending]
        exact Function.update_idem _ _ _
      simp only [userView, Storage.userView, hexec.block, hexec.records.pools,
        hexec.records.unstakesOfIndex, hexec.records.unstakesIndexForUser,
        hsent.pools, hsent.records, hsent.indexes, hpayloads, hqueue,
        deliverAll_tokens hsent.tokens hexec.delivered]

theorem userOperation_of_view (hop : UserOperation (w.userView id) ev) :
    UserOperation w ev := by
  unfold UserOperation at hop ⊢
  split at hop
  case h_3 other answer querier bankAccepts haction =>
      obtain ⟨b, packet, payload, hpacket, hpayload⟩ := hop
      exact ⟨b, packet, payload, (userView_pending hpacket).2, hpayload⟩
  all_goals exact hop

/-- While a step waits for its answer, users see each other's operations. -/
theorem UserOperation.seen (hop : UserOperation w ev)
    (hwaits : w.Unanswered a txType id) (hkind : txType.isEra = true) :
    UserOperation (w.userView id) ev := by
  unfold UserOperation at hop ⊢
  split at hop
  case h_3 other answer querier bankAccepts haction =>
      obtain ⟨b, packet, payload, hpacket, hpayload, hpool, htype⟩ := hop
      obtain ⟨_, step, hstep, hstepPayload, -, rfl⟩ := hwaits
      have hne : other ≠ id := by
        rintro rfl
        obtain rfl := Option.some.inj (hpacket.symm.trans hstep)
        obtain rfl := Option.some.inj (hpayload.symm.trans hstepPayload)
        simp [htype, TxType.isEra] at hkind
      exact ⟨b, packet, payload, (Map.remove_of_ne hne).trans hpacket,
        hpayload, hpool, htype⟩
  all_goals exact hop

/-- An operation of a user leaves the progress of every pool alone. -/
theorem progress_of_user (hs : Sound net w) (hstep : w.step net ev = some w')
    (hop : UserOperation w ev) (hp : w.store.pools a = some p) :
    ∃ p', w'.store.pools a = some p' ∧ p'.era = p.era ∧
      p'.status = p.status := by
  obtain ⟨p', hp', hmove⟩ := pool_move hs hstep hp
  refine ⟨p', hp', ?_⟩
  cases hmove with
  | executed haction hexec hsends =>
      rcases hexec.calm_or_era with hcalm | hera
      · exact ⟨hcalm.era, hcalm.status⟩
      · have hmsg := (EraStep.isStep hera).1
        simp only [UserOperation, haction] at hop
        split at hop <;> simp_all [ExecuteMsg.isStep]
  | answered haction hpacket hpayload hpool hanswer hpending =>
      rcases hanswer.calm_or_era with hcalm | hera
      · exact ⟨hcalm.era, hcalm.status⟩
      · have hkind := EraAnswer.isStep hera
        simp only [UserOperation, haction] at hop
        obtain ⟨_, packet, payload, hpacket', hpayload', -, htype⟩ := hop
        obtain rfl := Option.some.inj (hpacket.symm.trans hpacket')
        obtain rfl := Option.some.inj (hpayload.symm.trans hpayload')
        simp [htype, TxType.isStep, TxType.isEra, TxType.isInit] at hkind
  | answeredElsewhere => exact ⟨rfl, rfl⟩
  | vain => exact ⟨rfl, rfl⟩
  | idle => exact ⟨rfl, rfl⟩

/-- The packet of a step keeps waiting while users operate. -/
theorem waits_of_user (hs : Sound net w) (hstep : w.step net ev = some w')
    (hop : UserOperation (w.userView id) ev)
    (hwaits : w.Unanswered a txType id) : w'.Unanswered a txType id := by
  obtain ⟨packet, payload, hpacket, hpayload⟩ := hwaits
  refine ⟨packet, payload, ?_, hpayload⟩
  cases haction : ev.action with
  | execute querier info msg sent =>
      obtain ⟨_, _, _, hexec⟩ := executed_of_step hs hstep haction
      exact pending_after_sends (hs.at_block ev.block) hexec.sends hpacket
  | answer other answer querier bankAccepts =>
      obtain ⟨_, -, hhandled⟩ := handled_of_step hs hstep haction
      simp only [UserOperation, haction] at hop
      obtain ⟨_, _, _, hother, -⟩ := hop
      rw [hhandled.pending]
      exact (Map.remove_of_ne (userView_pending hother).1.symm).trans hpacket
  | token addrValidate address sender msg =>
      obtain ⟨-, -, hact⟩ := step_eq_some hstep
      rw [haction] at hact
      obtain ⟨-, hquiet, -⟩ := token_of_act hact
      rw [hquiet.pending]
      exact hpacket
  | openAck icaId channelId counterpartyChannelId hostConnectionId =>
      simp [UserOperation, haction] at hop
  | kvQueryResult queryId querier => simp [UserOperation, haction] at hop

/-- An error or a timeout of a step restores the progress of its pool. -/
theorem failed_of_step (hs : Sound net w) (hstep : w.step net ev = some w')
    {answer : Answer} {querier : Querier} {bankAccepts : Bool}
    (haction : ev.action = .answer id answer querier bankAccepts)
    (hfailed : answer ≠ .success) (hwaits : w.Unanswered a txType id)
    (hkind : txType.isEra = true) (hp : w.store.pools a = some p)
    (hera : txType.eraGain ≤ p.era) :
    ∃ p', w'.store.pools a = some p' ∧ p'.timeless = p.timeless ∧
      txType.sentIn = some p'.status ∧ p'.era + txType.eraGain = p.era := by
  obtain ⟨packet, payload, hpacket, hpayload, rfl, rfl⟩ := hwaits
  obtain ⟨p', hp', hmove⟩ := pool_move hs hstep hp
  refine ⟨p', hp', ?_⟩
  cases hmove with
  | executed h => rw [haction] at h; cases h
  | answered h hpacket' hpayload' hpool hanswer hpending =>
      rw [haction] at h
      cases h
      obtain rfl := Option.some.inj (hpacket.symm.trans hpacket')
      obtain rfl := Option.some.inj (hpayload.symm.trans hpayload')
      rcases hanswer.calm_or_era with hcalm | hanswer
      · rw [hcalm.kind.1] at hkind
        cases hkind
      · exact hanswer.undone hkind hfailed
  | answeredElsewhere h hpacket' helsewhere hpending =>
      rw [haction] at h
      cases h
      obtain rfl := Option.some.inj (hpacket.symm.trans hpacket')
      exact absurd rfl (helsewhere payload hpayload)
  | vain h hpacket' hpayload' hpool hvain hpending =>
      rw [haction] at h
      cases h
      obtain rfl := Option.some.inj (hpacket.symm.trans hpacket')
      obtain rfl := Option.some.inj (hpayload.symm.trans hpayload')
      obtain ⟨store, hcall⟩ := @sudoFailedCallback_total (w.afterTake id)
        payload p hp (isStep_of_isEra _ hkind)
        (fun htype => by simpa [htype, TxType.eraGain] using hera)
      refine absurd rfl (hvain store Response.new ?_)
      cases answer with
      | success => exact absurd rfl hfailed
      | error => exact hcall
      | timeout => exact hcall
  | idle _ h => exact absurd haction (h _ _ _ _)

/-- A run of users does not ask for a later start. -/
theorem exec_of_block {block : BlockInfo} {ops : List Event}
    (hheight : w.block.height ≤ block.height)
    (htime : w.block.time ≤ block.time)
    (hrun : Transition.exec (step net) { w with block := block } ops =
      some w') :
    ∃ v, Transition.exec (step net) w ops = some v ∧ v.store = w'.store := by
  cases ops with
  | nil =>
      simp only [Transition.exec_nil, Option.some.injEq] at hrun
      exact ⟨w, rfl, hrun ▸ rfl⟩
  | cons op rest =>
      obtain ⟨next, hnext, hrest⟩ := Transition.exec_cons_eq_some.mp hrun
      obtain ⟨hlater, hlater', hact⟩ := step_eq_some hnext
      refine ⟨w', Transition.exec_cons_eq_some.mpr ⟨next, ?_, hrest⟩, rfl⟩
      unfold step
      rw [if_pos ⟨hheight.trans hlater, htime.trans hlater'⟩]
      exact hact

/-- The progress of a pool is the same at the end of a run of users. -/
theorem progress_of_users {ops : List Event} (hs : Sound net w)
    (hops : Transition.AllSteps (step net) (fun w ev _ => UserOperation w ev)
      w ops)
    (hrun : Transition.exec (step net) w ops = some w')
    (hp : w.store.pools a = some p) :
    ∃ p', w'.store.pools a = some p' ∧ p'.era = p.era ∧
      p'.status = p.status := by
  refine (Transition.AllSteps.invariant_last (fun v => Sound net v ∧
    ∃ q, v.store.pools a = some q ∧ q.era = p.era ∧ q.status = p.status)
    ?_ ⟨hs, p, hp, rfl, rfl⟩ hops hrun).2
  rintro v op v' ⟨hv, q, hq, hera, hstatus⟩ hstep hop
  obtain ⟨q', hq', hera', hstatus'⟩ := progress_of_user hv hstep hop hq
  exact ⟨sound_step hv hstep, q', hq', hera'.trans hera,
    hstatus'.trans hstatus⟩

end World

end NeutronContracts
