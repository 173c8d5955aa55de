/-
The supply of the tokens: what the messages of a response create and destroy
of a token, and what a handler adds to the counter of a pool at the same time.
-/
import NeutronContracts.Chain.Coins
import NeutronContracts.Chain.EraProtocol
import NeutronContracts.Chain.Messages

namespace NeutronContracts

open StakeManager Fallible

namespace StakeManager

/-- The tokens `x` that a message creates. -/
def SubMsg.minted (x : String) (sub : SubMsg) : Nat :=
  match sub.msg with
  | .wasmExecute address msg =>
      if address = x then (World.tokenCall msg).minted else 0
  | _ => 0

/-- The tokens `x` that a message destroys. -/
def SubMsg.burned (x : String) (sub : SubMsg) : Nat :=
  match sub.msg with
  | .wasmExecute address msg =>
      if address = x then (World.tokenCall msg).burned else 0
  | _ => 0

end StakeManager

def minted (x : String) (subs : List SubMsg) : Nat :=
  (subs.map (·.minted x)).sum

def burned (x : String) (subs : List SubMsg) : Nat :=
  (subs.map (·.burned x)).sum

@[simp] theorem minted_nil (x : String) : minted x [] = 0 := rfl

@[simp] theorem burned_nil (x : String) : burned x [] = 0 := rfl

@[simp] theorem minted_cons (x : String) (sub : SubMsg) (subs : List SubMsg) :
    minted x (sub :: subs) = sub.minted x + minted x subs := by
  simp [minted]

@[simp] theorem burned_cons (x : String) (sub : SubMsg) (subs : List SubMsg) :
    burned x (sub :: subs) = sub.burned x + burned x subs := by
  simp [burned]

@[simp] theorem minted_append (x : String) (first second : List SubMsg) :
    minted x (first ++ second) = minted x first + minted x second := by
  simp [minted]

@[simp] theorem burned_append (x : String) (first second : List SubMsg) :
    burned x (first ++ second) = burned x first + burned x second := by
  simp [burned]

/-- The messages do not call token `x`. -/
def Spares (x : String) (subs : List SubMsg) : Prop :=
  ∀ sub ∈ subs, ∀ msg, sub.msg ≠ .wasmExecute x msg

/-- The messages call no token. -/
def Tokenless (subs : List SubMsg) : Prop :=
  ∀ sub ∈ subs, ∀ address msg, sub.msg ≠ .wasmExecute address msg

theorem Tokenless.spares {subs : List SubMsg} (h : Tokenless subs)
    (x : String) : Spares x subs := fun sub hsub => h sub hsub x

theorem Spares.supply {x : String} {subs : List SubMsg} (h : Spares x subs) :
    minted x subs = 0 ∧ burned x subs = 0 := by
  induction subs with
  | nil => exact ⟨rfl, rfl⟩
  | cons sub rest ih =>
      rw [Spares, List.forall_mem_cons] at h
      obtain ⟨hminted, hburned⟩ := ih h.2
      have hsub : sub.minted x = 0 ∧ sub.burned x = 0 := by
        unfold SubMsg.minted SubMsg.burned
        cases hmsg : sub.msg with
        | wasmExecute address msg =>
            have hne : address ≠ x := by
              rintro rfl
              exact h.1 msg hmsg
            simp [hne]
        | _ => exact ⟨rfl, rfl⟩
      simp [hsub, hminted, hburned]

section

variable {store store' : Storage} {querier : Querier} {env : Env}
  {info : MessageInfo} {msg : ExecuteMsg} {rsp : Response} {a b : String}
  {p p' q : PoolInfo} {sent : Option SubMsg}

theorem tokenless_of_icq {icaId : String} {period : Nat}
    {icq : List CosmosMsg}
    (h : getUpdatePoolIcqMsgs store a icaId period = .ok icq) :
    Tokenless (icq.map (⟨·, none, none⟩)) := by
  obtain ⟨_, _, _, _, rfl⟩ := getUpdatePoolIcqMsgs_ok h
  simp [Tokenless]

/-- All other handlers call no token. -/
theorem execute_tokenless
    (h : execute store querier env info msg = .ok (store', rsp))
    (hother : msg.callsToken = false) : Tokenless rsp.messages := by
  intro sub hsub address call hmsg
  have hmay := execute_emits h sub hsub
  rw [hmsg, ExecuteMsg.mayEmit, hother] at hmay
  cases hmay

/-- The counter of a pool follows the messages on its token. -/
structure Counts (p p' : PoolInfo) (subs : List SubMsg) : Prop where
  token : p'.lsdToken = p.lsdToken
  total : p'.totalLsdTokenAmount + burned p.lsdToken subs =
    p.totalLsdTokenAmount + minted p.lsdToken subs

theorem Counts.of_spares {subs : List SubMsg}
    (htoken : p'.lsdToken = p.lsdToken)
    (htotal : p'.totalLsdTokenAmount = p.totalLsdTokenAmount)
    (h : Spares p.lsdToken subs) : Counts p p' subs := by
  obtain ⟨hminted, hburned⟩ := h.supply
  exact ⟨htoken, by rw [hminted, hburned, htotal]⟩

/-- Tokens are minted for what the counter grows by. -/
theorem Counts.of_mint {recipient : String} {amount : Nat}
    (htoken : p'.lsdToken = p.lsdToken)
    (htotal : p'.totalLsdTokenAmount = p.totalLsdTokenAmount + amount) :
    Counts p p'
      [⟨.wasmExecute p.lsdToken (.mint recipient amount), none, none⟩] := by
  refine ⟨htoken, ?_⟩
  rw [htotal]
  simp [SubMsg.minted, SubMsg.burned, World.tokenCall,
    LsdToken.ExecuteMsg.minted, LsdToken.ExecuteMsg.burned]

/-- Other calls leave the counter of a started pool alone. -/
theorem ExecStep.counter
    (h : ExecStep store querier env info a p msg sent p')
    (hother : msg.callsToken = false) (hlive : p.status ≠ .registerEnded) :
    p'.lsdToken = p.lsdToken ∧
      p'.totalLsdTokenAmount = p.totalLsdTokenAmount := by
  cases h with
  | stake => cases hother
  | unstake => cases hother
  | config hpool hconfig =>
      obtain ⟨_, _, _, _, _, _, _, _, _, _, _, rfl⟩ := hconfig
      exact ⟨rfl, rfl⟩
  | era hera =>
      cases hera with
      | init htarget hstatus hcalls => exact absurd hstatus hlive
      | migrate htarget hstatus hrate hcal hcalls => exact absurd hstatus hlive
      | active => cases hother
      | _ => exact ⟨rfl, rfl⟩
  | _ => exact ⟨rfl, rfl⟩

theorem mintFee_supply (x recipient : String) (fee : Nat) :
    minted x ((mintFee x recipient fee).map (⟨·, none, none⟩)) = fee ∧
      burned x ((mintFee x recipient fee).map (⟨·, none, none⟩)) = 0 := by
  unfold mintFee
  split
  case isTrue =>
      simp [SubMsg.minted, SubMsg.burned, World.tokenCall,
        LsdToken.ExecuteMsg.minted, LsdToken.ExecuteMsg.burned]
  case isFalse hzero =>
      simp only [ne_eq, not_not] at hzero
      simp [hzero]

theorem mintFee_spares {x y recipient : String} {fee : Nat} (hne : y ≠ x) :
    Spares x ((mintFee y recipient fee).map (⟨·, none, none⟩)) := by
  unfold mintFee
  split <;> simp [Spares, hne]

theorem unstakeMessages_supply (p : PoolInfo) (sender : String)
    (cmsFee amount : Nat) :
    let subs : List SubMsg := (unstakeMessages p sender cmsFee amount).map
      fun msg => ⟨.wasmExecute p.lsdToken msg, none, none⟩
    minted p.lsdToken subs = 0 ∧ burned p.lsdToken subs = amount := by
  unfold unstakeMessages
  split <;> simp [SubMsg.minted, SubMsg.burned, World.tokenCall,
    LsdToken.ExecuteMsg.minted, LsdToken.ExecuteMsg.burned]

/-- No other pool with a rate has the token of pool `a`. -/
def OwnsToken (store : Storage) (a : String) (p : PoolInfo) : Prop :=
  ∀ b q, store.pools b = some q → q.rate ≠ 0 ∨ q.status ≠ .registerEnded →
    q.lsdToken = p.lsdToken → b = a

/-- A handler that writes the pool of address `b` and calls its token. -/
theorem Counts.of_target (hp : store.pools a = some p)
    (hp' : store'.pools a = some p') (hown : OwnsToken store a p)
    (hq : store.pools b = some q)
    (hlive : q.rate ≠ 0 ∨ q.status ≠ .registerEnded) {q' : PoolInfo}
    (hpools : store'.pools = store.pools.save b q') {subs : List SubMsg}
    (hcounts : Counts q q' subs)
    (hspares : ∀ x, q.lsdToken ≠ x → Spares x subs) : Counts p p' subs := by
  rw [hpools] at hp'
  by_cases hpool : b = a
  · subst hpool
    obtain rfl := Option.some.inj (hp.symm.trans hq)
    rw [Map.save_self] at hp'
    obtain rfl := Option.some.inj hp'
    exact hcounts
  · rw [Map.save_of_ne (Ne.symm hpool)] at hp'
    obtain rfl := Option.some.inj (hp.symm.trans hp')
    exact .of_spares rfl rfl (hspares _ fun htoken =>
      hpool (hown b q hq hlive htoken))

/-- Every accepted call moves the counter of a started pool with the supply of
its token. -/
theorem execute_counts (h : execute store querier env info msg =
      .ok (store', rsp)) (hp : store.pools a = some p)
    (hp' : store'.pools a = some p')
    (hstep : ExecStep store querier env info a p msg sent p')
    (hlive : p.status ≠ .registerEnded) (hown : OwnsToken store a p) :
    Counts p p' rsp.messages := by
  cases hcalls : msg.callsToken with
  | false =>
      obtain ⟨htoken, htotal⟩ := hstep.counter hcalls hlive
      exact .of_spares htoken htotal ((execute_tokenless h hcalls).spares _)
  | true =>
      cases msg with
      | stake user b =>
          obtain ⟨q, coin, hq, -, -, hrate, rfl, hmsgs⟩ := executeStake_ok h
          rw [hmsgs]
          exact .of_target hp hp' hown hq (.inl hrate) rfl (.of_mint rfl rfl)
            fun x hne => by simp [Spares, hne]
      | unstake amount b =>
          obtain ⟨q, cmsFee, total, token, hq, -, -, -, htoken, -, htotal,
            hlarge, rfl, hmsgs⟩ := executeUnstake_ok h
          have hrate : q.rate ≠ 0 := by
            intro hzero
            simp only [hzero, Nat.mul_zero, Nat.zero_div] at htoken
            omega
          rw [hmsgs]
          refine .of_target hp hp' hown hq (.inl hrate) rfl ⟨rfl, ?_⟩
            fun x hne => by simp [Spares, hne]
          obtain ⟨hminted, hburned⟩ :=
            unstakeMessages_supply q info.sender cmsFee total
          rw [hminted, hburned]
          exact Nat.sub_add_cancel htotal
      | eraActive b =>
          obtain ⟨q, stackInfo, act, fees, icq, next, hq, hstatus, -, -, -,
            rfl, hicq, hmsgs⟩ := executeEraActive_ok h
          rw [hmsgs, List.map_append, List.map_append]
          have hqueries := tokenless_of_icq hicq
          refine .of_target hp hp' hown hq (.inr (by simp [hstatus])) rfl
            ⟨rfl, ?_⟩ fun x hne => ?_
          · simp only [minted_append, burned_append, mintFee_supply,
              (hqueries.spares _).supply]
            simp only [Activation.apply]
            omega
          · unfold Spares
            rw [List.forall_mem_append, List.forall_mem_append]
            exact ⟨⟨mintFee_spares hne, mintFee_spares hne⟩,
              hqueries.spares x⟩
      | _ => cases hcalls

/-- Only the credit of shares calls a token. -/
theorem callback_tokenless {payload : SudoPayload} {answer : Answer}
    (h : callback store env payload answer = .ok (store', rsp))
    (hother : ¬ (payload.txType = .stakeLsm ∧ answer = .success)) :
    Tokenless rsp.messages := by
  have hfailed : sudoFailedCallback store payload = .ok (store', rsp) →
      Tokenless rsp.messages := by
    intro hfailed
    by_cases hkind : payload.txType = .stakeLsm
    · simp only [sudoFailedCallback, hkind] at hfailed
      obtain ⟨_, _, -, hmsgs⟩ := sudoStakeLsmFailedCallback_ok hfailed
      simp [Tokenless, hmsgs]
    · rw [sudoFailedCallback_silent hkind hfailed]
      simp [Tokenless]
  cases answer with
  | success =>
      rw [sudoCallback_silent (fun hkind => hother ⟨hkind, rfl⟩) h]
      simp [Tokenless]
  | error => exact hfailed h
  | timeout => exact hfailed h

/-- Every handled answer moves the counter of a pool with the supply of its
token. -/
theorem callback_counts {payload : SudoPayload} {answer : Answer}
    (h : callback store env payload answer = .ok (store', rsp))
    (hp : store.pools a = some p) (hp' : store'.pools a = some p')
    (hown : OwnsToken store a p) : Counts p p' rsp.messages := by
  have houtcome := callback_outcome h
  by_cases hcredit : payload.txType = .stakeLsm ∧ answer = .success
  · obtain ⟨htype, rfl⟩ := hcredit
    simp only [callback, sudoCallback, htype] at h
    obtain ⟨q, staker, tokenAmount, share, -, hq, hrate, rfl, hmsgs⟩ :=
      sudoStakeLsmCallback_ok h
    rw [hmsgs]
    exact .of_target hp hp' hown hq (.inl hrate) rfl (.of_mint rfl rfl)
      fun x hne => by simp [Spares, hne]
  · have htokenless := callback_tokenless h hcredit
    have hkept : p'.lsdToken = p.lsdToken ∧
        p'.totalLsdTokenAmount = p.totalLsdTokenAmount := by
      by_cases hpool : payload.poolAddr = a
      · subst hpool
        obtain ⟨q', hq', hanswer⟩ := houtcome.step p hp
        obtain rfl := Option.some.inj (hp'.symm.trans hq')
        cases hanswer with
        | era hera => cases hera <;> exact ⟨rfl, rfl⟩
        | stakeLsm htype => exact absurd ⟨htype, rfl⟩ hcredit
        | _ => exact ⟨rfl, rfl⟩
      · rw [houtcome.elsewhere a hpool, hp] at hp'
        obtain rfl := Option.some.inj hp'
        exact ⟨rfl, rfl⟩
    exact .of_spares hkept.1 hkept.2 (htokenless.spares _)

end

namespace World

variable {net : Network} {w w' : World} {ev : Event} {x : String}
  {token : LsdToken.Token} {delivery : Delivery}

/-! ### The supply of a token -/

theorem runToken_supply {addrValidate : String → Bool}
    {address sender : String} {msg : LsdToken.ExecuteMsg}
    (h : w.runToken addrValidate address sender msg = some w')
    (hx : w.tokens x = some token) :
    ∃ token', w'.tokens x = some token' ∧
      token'.info.totalSupply + (if address = x then msg.burned else 0) =
        token.info.totalSupply + (if address = x then msg.minted else 0) := by
  unfold runToken at h
  split at h
  case h_1 => cases h
  case h_2 called hcalled =>
      split at h
      case h_1 => cases h
      case h_2 next received hcall =>
          cases h
          by_cases haddr : address = x
          · subst haddr
            obtain rfl := Option.some.inj (hx.symm.trans hcalled)
            refine ⟨next, Map.save_self, ?_⟩
            simpa using LsdToken.execute_supply hcall
          · exact ⟨token, (Map.save_of_ne (Ne.symm haddr)).trans hx,
              by simp [haddr]⟩

theorem createToken_other {querier : Querier} {codeId : Nat}
    {msg : LsdInstantiateMsg} {salt : String}
    (h : w.createToken net querier codeId msg salt = some w')
    (hx : w.tokens x = some token) : w'.tokens x = some token := by
  unfold createToken at h
  split at h
  case h_1 => cases h
  case h_2 address haddr =>
      split at h
      case isTrue => cases h
      case isFalse hfree =>
          split at h
          case h_1 => cases h
          case h_2 =>
              cases h
              refine (Map.save_of_ne ?_).trans hx
              rintro rfl
              simp [hx] at hfree

/-- A message changes the supply of a token by what it creates and destroys. -/
theorem deliver_supply {sub : SubMsg}
    (h : deliver net delivery w sub = some w') (hx : w.tokens x = some token) :
    ∃ token', w'.tokens x = some token' ∧
      token'.info.totalSupply + sub.burned x =
        token.info.totalSupply + sub.minted x := by
  obtain ⟨msg, replyOnSuccess, payload⟩ := sub
  have hsame : w'.tokens = w.tokens → ∃ token', w'.tokens x = some token' ∧
      token'.info.totalSupply = token.info.totalSupply :=
    fun htokens => ⟨token, htokens ▸ hx, rfl⟩
  cases msg with
  | wasmExecute address msg => exact runToken_supply h hx
  | wasmInstantiate2 admin codeId msg label salt =>
      exact ⟨token, createToken_other h hx, rfl⟩
  | bankSend toAddress amount =>
      simp only [deliver] at h
      split at h <;> cases h
      exact hsame rfl
  | ibcTransfer transfer => exact hsame (sendPacket_sent h).tokens
  | submitTx tx => exact hsame (sendPacket_sent h).tokens
  | registerInterchainAccount connectionId icaId fee =>
      cases h
      exact hsame rfl
  | registerInterchainQuery connectionId keys period =>
      exact hsame (registerQuery_quiet h).2.1
  | updateInterchainQuery queryId newKeys newPeriod =>
      cases h
      exact hsame (watch_quiet w newKeys).2.2

theorem deliverAll_supply {subs : List SubMsg}
    (h : deliverAll net delivery w subs = some w')
    (hx : w.tokens x = some token) :
    ∃ token', w'.tokens x = some token' ∧
      token'.info.totalSupply + burned x subs =
        token.info.totalSupply + minted x subs := by
  induction subs generalizing w token with
  | nil =>
      cases h
      exact ⟨token, hx, rfl⟩
  | cons sub rest ih =>
      obtain ⟨middle, hfirst, hrest⟩ := deliverAll_cons h
      obtain ⟨first, hmiddle, hsupply⟩ := deliver_supply hfirst hx
      obtain ⟨last, hlast, hsupply'⟩ := ih hrest hmiddle
      refine ⟨last, hlast, ?_⟩
      rw [minted_cons, burned_cons]
      omega

theorem commit_supply {result : NeutronResult (Storage × Response)}
    (h : w.commit net delivery result = some w')
    (hx : w.tokens x = some token) :
    ∃ token', w'.tokens x = some token' ∧
      token'.info.totalSupply + burned x (messages result) =
        token.info.totalSupply + minted x (messages result) := by
  unfold commit at h
  split at h
  · cases h
  · exact deliverAll_supply h hx

/-- A call of token `x` by anyone but the stake manager. -/
def foreignCall (x : String) (ev : Event) : Option LsdToken.ExecuteMsg :=
  match ev.action with
  | .token _ address _ msg => if address = x then some msg else none
  | _ => none

/-- What others destroy of token `x`. -/
def foreignBurn (x : String) (ev : Event) : Nat :=
  ((foreignCall x ev).map (·.burned)).getD 0

/-- What others create of token `x`. -/
def foreignMint (x : String) (ev : Event) : Nat :=
  ((foreignCall x ev).map (·.minted)).getD 0

/-- The supply of a token changes by the messages of the stake manager and by
the calls of others. -/
theorem supply_of_step (hstep : w.step net ev = some w')
    (hx : w.tokens x = some token) :
    ∃ token', w'.tokens x = some token' ∧
      token'.info.totalSupply + burned x (emitted net w ev) +
          foreignBurn x ev =
        token.info.totalSupply + minted x (emitted net w ev) +
          foreignMint x ev := by
  obtain ⟨-, -, hact⟩ := step_eq_some hstep
  cases haction : ev.action with
  | execute querier info msg id =>
      simp only [haction, act] at hact
      split at hact
      case isFalse => cases hact
      case isTrue =>
          obtain ⟨token', hx', hsupply⟩ := commit_supply hact hx
          exact ⟨token', hx', by
            simpa [emitted, foreignBurn, foreignMint, foreignCall, haction]
              using hsupply⟩
  | answer id answer querier bankAccepts =>
      simp only [haction, act] at hact
      split at hact
      case h_1 => cases hact
      case h_2 =>
          rw [Option.some.injEq] at hact
          change (commit net _ _ (sudoEntry w.store
            (env net { w with block := ev.block }) _)).getD _ = w' at hact
          simp only [emitted, foreignBurn, foreignMint, foreignCall, haction]
          cases hcommit : commit net _ _ _ with
          | none =>
              rw [hcommit] at hact
              subst hact
              exact ⟨token, hx, by simp⟩
          | some next =>
              rw [hcommit] at hact
              obtain rfl : next = w' := hact
              obtain ⟨token', hx', hsupply⟩ := commit_supply hcommit hx
              exact ⟨token', hx', by simpa using hsupply⟩
  | openAck icaId channelId counterpartyChannelId hostConnectionId =>
      simp only [haction, act] at hact
      split at hact
      · cases hact
      · cases hact
        exact ⟨token, hx, by
          simp [emitted, foreignBurn, foreignMint, foreignCall, haction]⟩
  | kvQueryResult queryId querier =>
      simp only [haction, act] at hact
      obtain ⟨token', hx', hsupply⟩ := commit_supply hact hx
      exact ⟨token', hx', by
        simpa [emitted, foreignBurn, foreignMint, foreignCall, haction]
          using hsupply⟩
  | token addrValidate address sender msg =>
      simp only [haction, act] at hact
      split at hact
      case isTrue => cases hact
      case isFalse =>
          obtain ⟨token', hx', hsupply⟩ := runToken_supply hact hx
          refine ⟨token', hx', ?_⟩
          simp only [emitted, foreignBurn, foreignMint, foreignCall, haction,
            minted_nil, burned_nil]
          split <;> simp_all

/-! ### The counter of a pool -/

variable {a : String} {p p' : PoolInfo} {querier : Querier}
  {info : MessageInfo} {msg : ExecuteMsg} {id : PacketId} {answer : Answer}
  {bankAccepts : Bool}

theorem counts_of_exec (hs : Sound net w) (hstep : w.step net ev = some w')
    (hp : w.store.pools a = some p) (hp' : w'.store.pools a = some p')
    (hlive : p.status ≠ .registerEnded) (hown : OwnsToken w.store a p)
    (haction : ev.action = .execute querier info msg id) :
    Counts p p' (emitted net w ev) := by
  obtain ⟨store, rsp, sent, hexec⟩ := executed_of_step hs hstep haction
  rw [hexec.records.pools] at hp'
  obtain ⟨q, hq, hpool⟩ := hexec.outcome.step a p hp
  obtain rfl := Option.some.inj (hp'.symm.trans hq)
  rw [emitted_of_exec haction hexec]
  exact execute_counts hexec.call hp hp' hpool hlive hown

theorem counts_of_answer (hs : Sound net w) (hstep : w.step net ev = some w')
    (hp : w.store.pools a = some p) (hp' : w'.store.pools a = some p')
    (hown : OwnsToken w.store a p)
    (haction : ev.action = .answer id answer querier bankAccepts) :
    Counts p p' (emitted net w ev) := by
  obtain ⟨packet, hpacket, hhandled⟩ := handled_of_step hs hstep haction
  cases hhandled with
  | handled hpayload hcall houtcome hdelivered =>
      rw [emitted_of_handled hs haction hpacket hpayload hcall hdelivered]
      rw [(bookkept_of_deliverAll hdelivered).1.pools] at hp'
      exact callback_counts hcall hp hp' hown
  | vain hvain hsame =>
      rw [emitted_of_vain hs haction hpacket hvain]
      subst hsame
      obtain rfl := Option.some.inj (hp.symm.trans hp')
      exact ⟨rfl, rfl⟩

/-- Events that are neither calls nor answers call no token. -/
theorem tokenless_of_idle
    (hexecute : ∀ querier info msg id,
      ev.action ≠ .execute querier info msg id)
    (hanswer : ∀ id answer querier bankAccepts,
      ev.action ≠ .answer id answer querier bankAccepts) :
    Tokenless (emitted net w ev) := by
  unfold emitted
  split
  · rename_i haction
    exact absurd haction (hexecute _ _ _ _)
  · rename_i haction
    exact absurd haction (hanswer _ _ _ _)
  · rename_i queryId _ _
    unfold messages
    dsimp only [sudoEntry]
    cases hcall : sudoKvQueryResult w.store queryId with
    | error e => simp [Tokenless, Except.toOption]
    | ok result =>
        obtain ⟨-, hmsgs | hmsgs⟩ := sudoKvQueryResult_ok hcall
        · simp [Tokenless, Except.toOption, hmsgs]
        · simp [Tokenless, Except.toOption, hmsgs]
  · simp [Tokenless]
  · simp [Tokenless]

/-- Every accepted event moves the counter of a started pool with the messages
on its token. -/
theorem counts_of_step (hs : Sound net w) (hstep : w.step net ev = some w')
    (hp : w.store.pools a = some p) (hp' : w'.store.pools a = some p')
    (hlive : p.status ≠ .registerEnded) (hown : OwnsToken w.store a p) :
    Counts p p' (emitted net w ev) := by
  obtain ⟨q, hq, hmove⟩ := pool_move hs hstep hp
  obtain rfl := Option.some.inj (hp'.symm.trans hq)
  cases hmove with
  | executed haction => exact counts_of_exec hs hstep hp hp' hlive hown haction
  | answered haction => exact counts_of_answer hs hstep hp hp' hown haction
  | answeredElsewhere haction =>
      exact counts_of_answer hs hstep hp hp' hown haction
  | vain haction => exact counts_of_answer hs hstep hp hp' hown haction
  | idle hexecute hanswer hpending =>
      exact .of_spares rfl rfl
        ((tokenless_of_idle hexecute hanswer).spares _)

/-! ### The token of a new pool -/

/-- The token of a new pool is created with it, without any supply. -/
theorem created_of_dealt {store : Storage} {rsp : Response}
    {call : Option (PacketId × String × ExecuteMsg)}
    (h : Dealt w.store store rsp querier net.self p a)
    (hdelivered : deliverAll net ⟨querier, true, call⟩
      { w with store := store } rsp.messages = some w') :
    ∃ q token, store.pools a = some q ∧
      q.totalLsdTokenAmount = p.totalLsdTokenAmount ∧
      w.tokens q.lsdToken = none ∧ w'.tokens q.lsdToken = some token ∧
      token.info.totalSupply = 0 := by
  obtain ⟨lsdToken, next, tx, payload, codeId, msg, label, salt, checksum,
    admin, withdrawAddr, _, _, _, _, _, _, hchecksum, haddress, -, hsame, -, -,
    rfl, hmsgs⟩ := h
  obtain ⟨_, _, _, rfl⟩ := hsame
  rw [hmsgs] at hdelivered
  obtain ⟨middle, hfirst, hrest⟩ := deliverAll_cons hdelivered
  simp only [deliver, createToken, hchecksum, Option.bind_some,
    haddress] at hfirst
  split at hfirst
  case isTrue => cases hfirst
  case isFalse hfree =>
      split at hfirst
      case h_1 => cases hfirst
      case h_2 token htoken =>
          cases hfirst
          obtain ⟨token', hlast, hsupply⟩ :=
            deliverAll_supply hrest (x := lsdToken) Map.save_self
          refine ⟨_, token', Map.save_self, rfl, ?_, hlast, ?_⟩
          · simpa using hfree
          · rw [LsdToken.instantiate_supply htoken rfl] at hsupply
            simp only [minted_cons, burned_cons] at hsupply
            simpa [SubMsg.minted, SubMsg.burned] using hsupply

end World

end NeutronContracts
