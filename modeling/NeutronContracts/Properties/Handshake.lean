/-
The channels of a pool open and reopen in any order.  Every acknowledgement
reaches the half of the registration that its port belongs to, the record of
the pool is created when both accounts are known for the first time, and no
acknowledgement touches it again.
-/
import NeutronContracts.Chain.Registry

namespace NeutronContracts

open StakeManager Fallible

/-! ### The two ports of a pool -/

/-- The interchain accounts that are registered for a pool. -/
inductive Half
  | pool
  | withdraw
deriving DecidableEq, Repr

namespace Half

/-- The account id behind the port of a half. -/
def icaId (icaId : String) : Half → String
  | .pool => icaId
  | .withdraw => getWithdrawIcaId icaId

/-- Change the information about one half. -/
def update (f : IcaInfo → IcaInfo) (info : IcaInfo × IcaInfo × String) :
    Half → IcaInfo × IcaInfo × String
  | .pool => (f info.1, info.2.1, info.2.2)
  | .withdraw => (info.1, f info.2.1, info.2.2)

/-- The information about one half. -/
def info (info : IcaInfo × IcaInfo × String) : Half → IcaInfo
  | .pool => info.1
  | .withdraw => info.2.1

end Half

/-- The addresses of both accounts are known. -/
def Complete (info : IcaInfo × IcaInfo × String) : Prop :=
  info.1.icaAddr ≠ "" ∧ info.2.1.icaAddr ≠ ""

instance (info : IcaInfo × IcaInfo × String) : Decidable (Complete info) :=
  inferInstanceAs (Decidable (_ ∧ _))

section

variable {contractAddress icaId : String}

theorem dot_not_mem_withdraw (h : '.' ∉ icaId.toList) :
    '.' ∉ (getWithdrawIcaId icaId).toList := by
  rw [getWithdrawIcaId, String.toList_append, List.mem_append]
  exact fun hmem => hmem.elim h (by decide)

theorem valid_chars (hvalid : validInterchainAccountId icaId = true) :
    '.' ∉ icaId.toList ∧ '-' ∉ icaId.toList := by
  simp only [validInterchainAccountId, decide_eq_true_eq] at hvalid
  exact ⟨hvalid.2.1, hvalid.2.2.1⟩

/-- The port of either half leads back to the id of the pool: an accepted id
has no dash, so the suffix of the withdraw account stands where it should. -/
theorem icaIdOfPort_half (hplain : '.' ∉ contractAddress.toList)
    (hvalid : validInterchainAccountId icaId = true) (half : Half) :
    icaIdOfPort (getPortId contractAddress (half.icaId icaId)) =
      .ok (icaId, decide (half = .pool)) := by
  obtain ⟨hdot, hdash⟩ := valid_chars hvalid
  unfold icaIdOfPort
  rw [split_getPortId hplain]
  cases half with
  | pool =>
      rw [Half.icaId, Text.split_eq_singleton hdot]
      have hplain : Text.containsText icaId icaWithdrawSufix = false :=
        Text.containsText_of_not_mem (c := '-') (by decide) hdash
      simp [hplain]
  | withdraw =>
      rw [Half.icaId, Text.split_eq_singleton (dot_not_mem_withdraw hdot)]
      simp only [getWithdrawIcaId, Text.containsText_append, if_true,
        Text.stripSuffix_append]
      rfl

/-- Only the ports of the two halves lead to an id. -/
theorem half_of_icaIdOfPort {port : String} {isPool : Bool}
    (hplain : '.' ∉ contractAddress.toList)
    (h : icaIdOfPort (getPortId contractAddress port) =
      .ok (icaId, isPool)) : ∃ half : Half, port = half.icaId icaId := by
  unfold icaIdOfPort at h
  split at h
  case h_2 => cases h
  case h_1 first icaIdRaw hparts =>
      rw [split_getPortId hplain, List.cons.injEq] at hparts
      obtain rfl := Text.split_eq_one hparts.2
      split at h
      · simp only [bind_eq_ok, orError_eq_ok, pure_eq_ok,
          Prod.mk.injEq] at h
        obtain ⟨_, hstrip, rfl, -⟩ := h
        exact ⟨.withdraw, Text.eq_append_of_stripSuffix hstrip⟩
      · simp only [pure_eq_ok, Prod.mk.injEq] at h
        exact ⟨.pool, h.1⟩

end

/-- The storage after the channel of a half was opened. -/
def StakeManager.Storage.opened (store : Storage) (icaId : String)
    (info : IcaInfo × IcaInfo × String) : Storage :=
  (if info.1.icaAddr ≠ "" ∧ info.2.1.icaAddr ≠ "" ∧
      (store.pools info.1.icaAddr).isNone then
    store.savePool info.1.icaAddr (registeredPool icaId info.2.2)
    else store).saveIcaInfo icaId info

/-- The acknowledgement for a port of a registered id is accepted, whatever
the state of the pool, and updates one half. -/
theorem sudoOpenAck_half {store : Storage} {contractAddress icaId : String}
    {channelId counterpartyChannelId : String} {version : OpenAckVersion}
    {info : IcaInfo × IcaInfo × String} {half : Half}
    (hplain : '.' ∉ contractAddress.toList)
    (hvalid : validInterchainAccountId icaId = true)
    (hinfo : store.infoOfIcaId icaId = some info) :
    sudoOpenAck store (getPortId contractAddress (half.icaId icaId)) channelId
        counterpartyChannelId (some version) =
      .ok (store.opened icaId (half.update (openedIcaInfo ·
        (getPortId contractAddress (half.icaId icaId)) channelId
        counterpartyChannelId version) info), Response.new) := by
  obtain ⟨pool, withdraw, admin⟩ := info
  simp only [sudoOpenAck, icaIdOfPort_half hplain hvalid]
  change (load (store.infoOfIcaId icaId) >>= _) = _
  rw [hinfo]
  cases half with
  | pool => rfl
  | withdraw => rfl

theorem opened_infoOfIcaId (store : Storage) (icaId : String)
    (info : IcaInfo × IcaInfo × String) :
    (store.opened icaId info).infoOfIcaId =
      store.infoOfIcaId.save icaId info := by
  unfold Storage.opened
  split <;> rfl

/-- An acknowledgement creates the record of the pool, or it leaves the
records alone. -/
theorem opened_pools (store : Storage) (icaId : String)
    (info : IcaInfo × IcaInfo × String) :
    (store.opened icaId info).pools = store.pools ∧
        (Complete info → ∃ p, store.pools info.1.icaAddr = some p) ∨
      Complete info ∧ store.pools info.1.icaAddr = none ∧
        (store.opened icaId info).pools = store.pools.save info.1.icaAddr
          (registeredPool icaId info.2.2) := by
  unfold Storage.opened
  split
  case isTrue hnew =>
      exact .inr ⟨⟨hnew.1, hnew.2.1⟩, Option.isNone_iff_eq_none.mp hnew.2.2,
        rfl⟩
  case isFalse hold =>
      refine .inl ⟨rfl, fun hcomplete => ?_⟩
      cases hpool : store.pools info.1.icaAddr with
      | some p => exact ⟨p, rfl⟩
      | none => exact absurd ⟨hcomplete.1, hcomplete.2, by rw [hpool]; rfl⟩ hold

namespace World

/-- The information about an id after an acknowledgement for a half. -/
def ackedInfo (net : Network) (icaId : String)
    (channelId counterpartyChannelId connectionId : String) (half : Half)
    (info : IcaInfo × IcaInfo × String) : IcaInfo × IcaInfo × String :=
  half.update (openedIcaInfo · (getPortId net.self (half.icaId icaId))
    channelId counterpartyChannelId
    ⟨connectionId, net.hostAddr (half.icaId icaId)⟩) info

/-- The registration of an id whose accounts live under an address is
complete. -/
def CompleteAt (w : World) (a : String) : Prop :=
  ∃ icaId info, w.store.infoOfIcaId icaId = some info ∧ Complete info ∧
    info.1.icaAddr = a

/-- What holds of a step of the chain, whatever channels have opened before:
acknowledgements for registered ids are accepted, update their own half and
keep the records of pools; the record of a pool is there exactly when both
accounts of an id at its address are known, and it starts as registered.  An
id that shares its host address with no other id has its record to itself. -/
structure HandshakeStep (net : Network) (w : World) (ev : Event) (w' : World) :
    Prop where
  accepted : ∀ icaId info, w.store.infoOfIcaId icaId = some info →
    ∀ (half : Half) (block : BlockInfo)
      (channelId counterpartyChannelId connectionId : String),
    w.block.height ≤ block.height → w.block.time ≤ block.time →
    ∃ next, w.step net ⟨block, .openAck (half.icaId icaId) channelId
      counterpartyChannelId (some connectionId)⟩ = some next
  updated : ∀ port channelId counterpartyChannelId hostConnectionId,
    ev.action = .openAck port channelId counterpartyChannelId
      hostConnectionId →
    ∃ icaId info connectionId, ∃ half : Half, port = half.icaId icaId ∧
      hostConnectionId = some connectionId ∧
      w.store.infoOfIcaId icaId = some info ∧
      w'.store.infoOfIcaId = w.store.infoOfIcaId.save icaId
        (ackedInfo net icaId channelId counterpartyChannelId connectionId
          half info)
  kept : ∀ port channelId counterpartyChannelId hostConnectionId,
    ev.action = .openAck port channelId counterpartyChannelId
      hostConnectionId →
    ∀ a p, w.store.pools a = some p → w'.store.pools a = some p
  created : ∀ a p, w.store.pools a = none → w'.store.pools a = some p →
    ∃ icaId info info', w.store.infoOfIcaId icaId = some info ∧
      ¬ Complete info ∧ w'.store.infoOfIcaId icaId = some info' ∧
      Complete info' ∧ a = info'.1.icaAddr ∧
      a = net.hostAddr icaId ∧ p = registeredPool icaId info'.2.2 ∧
      p.status = .registerEnded
  known : ∀ a, (∃ p, w'.store.pools a = some p) ↔ w'.CompleteAt a
  own : ∀ icaId info, w'.store.infoOfIcaId icaId = some info →
    (∀ other, validInterchainAccountId other = true →
      net.hostAddr other = net.hostAddr icaId → other = icaId) →
    ((∃ p, w'.store.pools (net.hostAddr icaId) = some p) ↔ Complete info)

variable {net : Network} {w w' : World} {ev : Event} {icaId : String}
  {info : IcaInfo × IcaInfo × String}

/-- The registrations: their ids are accepted ones, their addresses are those
of the host, and the complete ones have the pools. -/
structure Enrolled (net : Network) (w : World) : Prop where
  sound : Sound net w
  valid : ∀ icaId info, w.store.infoOfIcaId icaId = some info →
    validInterchainAccountId icaId = true
  hosted : ∀ icaId info, w.store.infoOfIcaId icaId = some info →
    ∀ half : Half, (half.info info).icaAddr = "" ∨
      (half.info info).icaAddr = net.hostAddr (half.icaId icaId)
  known : ∀ a, (∃ p, w.store.pools a = some p) ↔ w.CompleteAt a

/-- How an accepted event touches the registrations. -/
inductive InfoMove (net : Network) (w : World) (ev : Event) (w' : World) :
    Prop
  | registered (icaId : String) (info : IcaInfo × IcaInfo × String)
      (haction : ∀ port channelId counterpartyChannelId hostConnectionId,
        ev.action ≠ .openAck port channelId counterpartyChannelId
          hostConnectionId)
      (hvalid : validInterchainAccountId icaId = true)
      (hnew : w.store.infoOfIcaId icaId = none)
      (hempty : ∀ half : Half, (half.info info).icaAddr = "")
      (hinfo : w'.store.infoOfIcaId = w.store.infoOfIcaId.save icaId info)
      (hpools : w'.store.pools = w.store.pools) : InfoMove net w ev w'
  | acked (icaId : String) (info : IcaInfo × IcaInfo × String) (half : Half)
      (channelId counterpartyChannelId connectionId : String)
      (haction : ev.action = .openAck (half.icaId icaId) channelId
        counterpartyChannelId (some connectionId))
      (hinfo : w.store.infoOfIcaId icaId = some info)
      (hstore : w'.store = w.store.opened icaId
        (ackedInfo net icaId channelId counterpartyChannelId connectionId
          half info)) : InfoMove net w ev w'
  | kept
      (haction : ∀ port channelId counterpartyChannelId hostConnectionId,
        ev.action ≠ .openAck port channelId counterpartyChannelId
          hostConnectionId)
      (hinfo : w'.store.infoOfIcaId = w.store.infoOfIcaId)
      (hpools : ∀ a, (∃ p, w'.store.pools a = some p) ↔
        ∃ p, w.store.pools a = some p) : InfoMove net w ev w'

theorem act_ack (hvalid : validInterchainAccountId icaId = true) (half : Half)
    (channelId counterpartyChannelId connectionId : String)
    (hinfo : w.store.infoOfIcaId icaId = some info) :
    w.act net (.openAck (half.icaId icaId) channelId counterpartyChannelId
        (some connectionId)) =
      some { w with
        store := w.store.opened icaId (ackedInfo net icaId channelId
          counterpartyChannelId connectionId half info) } := by
  simp only [act, sudoEntry, Option.map_some,
    sudoOpenAck_half net.self_plain hvalid hinfo]
  rfl

/-- Transactions and answers create no pool. -/
theorem same_pools (hs : Sound net w) (hstep : w.step net ev = some w')
    (haction : (∃ querier sender msg id,
        ev.action = .execute querier sender msg id) ∨
      ∃ id answer querier bankAccepts,
        ev.action = .answer id answer querier bankAccepts) (a : String) :
    (∃ p, w'.store.pools a = some p) ↔ ∃ p, w.store.pools a = some p := by
  refine ⟨fun ⟨p', hpool'⟩ => ?_, fun ⟨p, hpool⟩ =>
    pool_persists hs hstep hpool⟩
  cases hpool : w.store.pools a with
  | some p => exact ⟨p, rfl⟩
  | none =>
      obtain ⟨-, -, hexecute, hanswer⟩ := pool_created hs hstep hpool hpool'
      obtain ⟨_, _, _, _, haction⟩ | ⟨_, _, _, _, haction⟩ := haction
      · exact absurd haction (hexecute _ _ _ _)
      · exact absurd haction (hanswer _ _ _ _)

theorem info_move (h : Enrolled net w) (hstep : w.step net ev = some w') :
    InfoMove net w ev w' := by
  have hs : Sound net w := h.sound
  obtain ⟨-, -, hact⟩ := step_eq_some hstep
  cases haction : ev.action with
  | execute querier sender msg id =>
      obtain ⟨store, rsp, sent, hexec⟩ := executed_of_step hs hstep haction
      have hcall := hexec.call
      by_cases hmsg : ∃ connectionId icaId,
          msg = .registerPool connectionId icaId
      · obtain ⟨connectionId, icaId, rfl⟩ := hmsg
        obtain ⟨_, hvalid, hnew, rfl, -⟩ := executeRegisterPool_ok hcall
        refine .registered icaId _ (by simp [haction]) hvalid hnew
          (fun half => ?_) hexec.records.infoOfIcaId hexec.records.pools
        cases half <;> rfl
      · push Not at hmsg
        exact .kept (by simp [haction])
          (hexec.records.infoOfIcaId.trans
            ((execute_own_registry hcall).infos hmsg))
          (same_pools hs hstep (.inl ⟨_, _, _, _, haction⟩))
  | answer id answer querier bankAccepts =>
      obtain ⟨packet, hpacket, hhandled⟩ := handled_of_step hs hstep haction
      refine .kept (by simp [haction]) ?_
        (same_pools hs hstep (.inr ⟨_, _, _, _, haction⟩))
      cases hhandled with
      | handled hpayload hcall houtcome hdelivered =>
          have hquiet := deliverAll_quiet houtcome.packets hdelivered
          exact hquiet.store.infoOfIcaId.trans houtcome.infoOfIcaId
      | vain hvain hsame =>
          subst hsame
          rfl
  | openAck port channelId counterpartyChannelId hostConnectionId =>
      rw [haction] at hact
      have hcall := hact
      simp only [act, sudoEntry] at hcall
      split at hcall
      case h_1 => cases hcall
      case h_2 store rsp hopened =>
          obtain ⟨_, icaId, isPool, pool, withdraw, admin, _, _, hversion,
            hport, hinfo, -, -, -⟩ := sudoOpenAck_ok hopened
          obtain ⟨half, rfl⟩ := half_of_icaIdOfPort net.self_plain hport
          obtain ⟨connectionId, rfl, -⟩ :=
            Option.map_eq_some_iff.mp hversion
          rw [act_ack (w := { w with block := ev.block })
            (h.valid icaId _ hinfo) half channelId counterpartyChannelId
            connectionId hinfo] at hact
          cases hact
          exact .acked icaId _ half channelId counterpartyChannelId
            connectionId haction hinfo rfl
  | kvQueryResult queryId querier =>
      rw [haction] at hact
      obtain ⟨_, _, hquiet⟩ := kvQueryResult_of_act hact
      refine .kept (by simp [haction]) hquiet.store.infoOfIcaId fun a => ?_
      rw [hquiet.store.pools]
  | token addrValidate address sender msg =>
      rw [haction] at hact
      obtain ⟨-, -, hstore, -⟩ := token_of_act hact
      exact .kept (by simp [haction]) (by rw [hstore])
        fun a => by rw [hstore]

section

variable {half : Half}
  {channelId counterpartyChannelId connectionId : String}

/-- The acknowledged half shows the address of its port, the other half the
address it had. -/
theorem ackedInfo_icaAddr (other : Half) :
    (other.info (ackedInfo net icaId channelId counterpartyChannelId
      connectionId half info)).icaAddr =
    if other = half then net.hostAddr (half.icaId icaId)
      else (other.info info).icaAddr := by
  cases half <;> cases other <;> rfl

theorem complete_iff (info : IcaInfo × IcaInfo × String) :
    Complete info ↔ ∀ half : Half, (half.info info).icaAddr ≠ "" := by
  refine ⟨fun hcomplete half => ?_, fun h => ⟨h .pool, h .withdraw⟩⟩
  cases half with
  | pool => exact hcomplete.1
  | withdraw => exact hcomplete.2

theorem hosted_ackedInfo
    (hhosted : ∀ half : Half, (half.info info).icaAddr = "" ∨
      (half.info info).icaAddr = net.hostAddr (half.icaId icaId))
    (other : Half) :
    (other.info (ackedInfo net icaId channelId counterpartyChannelId
        connectionId half info)).icaAddr = "" ∨
      (other.info (ackedInfo net icaId channelId counterpartyChannelId
        connectionId half info)).icaAddr =
        net.hostAddr (other.icaId icaId) := by
  rw [ackedInfo_icaAddr]
  split
  case isTrue hsame => exact .inr (by rw [hsame])
  case isFalse => exact hhosted other

/-- Once both addresses are known, acknowledgements repeat them. -/
theorem icaAddr_of_complete
    (hhosted : ∀ half : Half, (half.info info).icaAddr = "" ∨
      (half.info info).icaAddr = net.hostAddr (half.icaId icaId))
    (hcomplete : Complete info) (other : Half) :
    (other.info (ackedInfo net icaId channelId counterpartyChannelId
      connectionId half info)).icaAddr = (other.info info).icaAddr := by
  rw [ackedInfo_icaAddr]
  split
  case isTrue hsame =>
      subst hsame
      exact ((hhosted other).resolve_left
        ((complete_iff info).mp hcomplete other)).symm
  case isFalse => rfl

end

/-- Saving a registration adds its address when it is complete, provided a
complete one stays as it was. -/
theorem completeAt_save (hsave : w'.store.infoOfIcaId =
      w.store.infoOfIcaId.save icaId info)
    (hstays : ∀ old, w.store.infoOfIcaId icaId = some old → Complete old →
      Complete info ∧ info.1.icaAddr = old.1.icaAddr) (a : String) :
    w'.CompleteAt a ↔ w.CompleteAt a ∨ Complete info ∧ info.1.icaAddr = a := by
  unfold CompleteAt
  rw [hsave]
  constructor
  · rintro ⟨other, found, hfound, hcomplete, haddr⟩
    by_cases hother : other = icaId
    · subst hother
      rw [Map.save_self] at hfound
      cases hfound
      exact .inr ⟨hcomplete, haddr⟩
    · rw [Map.save_of_ne hother] at hfound
      exact .inl ⟨other, found, hfound, hcomplete, haddr⟩
  · rintro (⟨other, found, hfound, hcomplete, haddr⟩ | ⟨hcomplete, haddr⟩)
    · by_cases hother : other = icaId
      · subst hother
        obtain ⟨hcomplete', hsame⟩ := hstays found hfound hcomplete
        exact ⟨other, info, Map.save_self, hcomplete',
          hsame.trans haddr⟩
      · exact ⟨other, found, by rw [Map.save_of_ne hother]; exact hfound,
          hcomplete, haddr⟩
    · exact ⟨icaId, info, Map.save_self, hcomplete, haddr⟩

/-- An acknowledgement keeps a complete registration complete. -/
theorem acked_stays (h : Enrolled net w) (half : Half)
    (channelId counterpartyChannelId connectionId : String)
    (hinfo : w.store.infoOfIcaId icaId = some info)
    (hcomplete : Complete info) :
    Complete (ackedInfo net icaId channelId counterpartyChannelId connectionId
        half info) ∧
      (ackedInfo net icaId channelId counterpartyChannelId connectionId
        half info).1.icaAddr = info.1.icaAddr := by
  have hsame : ∀ other : Half, (other.info (ackedInfo net icaId channelId
      counterpartyChannelId connectionId half info)).icaAddr =
        (other.info info).icaAddr :=
    icaAddr_of_complete (h.hosted icaId info hinfo) hcomplete
  refine ⟨(complete_iff _).mpr fun other => ?_, hsame .pool⟩
  rw [hsame other]
  exact (complete_iff info).mp hcomplete other

/-- After an acknowledgement the pools are those of the complete
registrations again. -/
theorem known_opened {a : String} {store : Storage}
    (hpools : ∀ a, (∃ p, store.pools a = some p) ↔ w.CompleteAt a) :
    (∃ p, (store.opened icaId info).pools a = some p) ↔
      w.CompleteAt a ∨ Complete info ∧ info.1.icaAddr = a := by
  rw [← hpools]
  obtain ⟨hsame, hthere⟩ | ⟨hcomplete, hnone, hpools'⟩ :=
    opened_pools store icaId info
  · rw [hsame]
    refine ⟨.inl, ?_⟩
    rintro (hpool | ⟨hcomplete, rfl⟩)
    · exact hpool
    · exact hthere hcomplete
  · rw [hpools']
    by_cases hother : a = info.1.icaAddr
    · subst hother
      rw [Map.save_self]
      exact ⟨fun _ => .inr ⟨hcomplete, rfl⟩, fun _ => ⟨_, rfl⟩⟩
    · rw [Map.save_of_ne hother]
      exact ⟨.inl, fun hpool => hpool.resolve_right fun hhere =>
        hother hhere.2.symm⟩

theorem enrolled_step (h : Enrolled net w) (hstep : w.step net ev = some w') :
    Enrolled net w' := by
  have hsound : Sound net w' := sound_step h.sound hstep
  cases info_move h hstep with
  | registered icaId info _ hvalid hnew hempty hinfo hpools =>
      have hincomplete : ¬ Complete info := fun hcomplete =>
        hcomplete.1 (hempty .pool)
      refine ⟨hsound, fun other found hfound => ?_,
        fun other found hfound half => ?_, fun a => ?_⟩
      · rw [hinfo, Map.save_apply] at hfound
        split at hfound
        case isTrue hsame => exact hsame ▸ hvalid
        case isFalse => exact h.valid other found hfound
      · rw [hinfo, Map.save_apply] at hfound
        split at hfound
        case isTrue =>
            cases hfound
            exact .inl (hempty half)
        case isFalse => exact h.hosted other found hfound half
      · rw [hpools, h.known, completeAt_save hinfo fun old hold => by
          rw [hnew] at hold; cases hold]
        exact ⟨.inl, fun hat => hat.resolve_right fun hhere =>
          hincomplete hhere.1⟩
  | acked icaId info half channelId counterpartyChannelId connectionId _ hinfo
      hstore =>
      have hsave := (congrArg Storage.infoOfIcaId hstore).trans
        (opened_infoOfIcaId _ _ _)
      refine ⟨hsound, fun other found hfound => ?_,
        fun other found hfound half' => ?_, fun a => ?_⟩
      · rw [hsave, Map.save_apply] at hfound
        split at hfound
        case isTrue hsame => exact hsame ▸ h.valid icaId info hinfo
        case isFalse => exact h.valid other found hfound
      · rw [hsave, Map.save_apply] at hfound
        split at hfound
        case isTrue hsame =>
            cases hfound
            subst hsame
            exact hosted_ackedInfo (h.hosted _ info hinfo) half'
        case isFalse => exact h.hosted other found hfound half'
      · rw [completeAt_save hsave fun old hold hcomplete => ?_, hstore,
          known_opened h.known]
        rw [hinfo] at hold
        cases hold
        exact acked_stays h half _ _ _ hinfo hcomplete
  | kept _ hinfo hpools =>
      refine ⟨hsound, hinfo ▸ h.valid, hinfo ▸ h.hosted, fun a => ?_⟩
      rw [hpools, h.known, CompleteAt, CompleteAt, hinfo]

/-- An id with a host address of its own has the record under it. -/
theorem Enrolled.own (h : Enrolled net w)
    (hinfo : w.store.infoOfIcaId icaId = some info)
    (hown : ∀ other, validInterchainAccountId other = true →
      net.hostAddr other = net.hostAddr icaId → other = icaId) :
    (∃ p, w.store.pools (net.hostAddr icaId) = some p) ↔ Complete info := by
  rw [h.known]
  constructor
  · rintro ⟨other, found, hfound, hcomplete, haddr⟩
    have hhost := (h.hosted other found hfound .pool).resolve_left hcomplete.1
    obtain rfl := hown other (h.valid other found hfound)
      (hhost.symm.trans haddr)
    rw [hinfo] at hfound
    cases hfound
    exact hcomplete
  · intro hcomplete
    exact ⟨icaId, info, hinfo, hcomplete,
      (h.hosted icaId info hinfo .pool).resolve_left hcomplete.1⟩

/-- A record that was not there stands for a registration that an
acknowledgement has just completed. -/
theorem created_of_move (h : Enrolled net w) (hmove : InfoMove net w ev w')
    {a : String} {p : PoolInfo} (hnone : w.store.pools a = none)
    (hpool : w'.store.pools a = some p) :
    ∃ icaId info info', w.store.infoOfIcaId icaId = some info ∧
      ¬ Complete info ∧ w'.store.infoOfIcaId icaId = some info' ∧
      Complete info' ∧ a = info'.1.icaAddr ∧
      a = net.hostAddr icaId ∧ p = registeredPool icaId info'.2.2 ∧
      p.status = .registerEnded := by
  cases hmove with
  | registered _ _ _ _ _ _ _ hpools =>
      rw [hpools, hnone] at hpool
      cases hpool
  | kept _ _ hpools =>
      obtain ⟨_, hold⟩ := (hpools a).mp ⟨p, hpool⟩
      rw [hnone] at hold
      cases hold
  | acked icaId info half channelId counterpartyChannelId connectionId _ hinfo
      hstore =>
      obtain ⟨hsame, -⟩ | ⟨hcomplete, -, hpools⟩ := opened_pools w.store icaId
        (ackedInfo net icaId channelId counterpartyChannelId connectionId half
          info)
      · rw [hstore, hsame, hnone] at hpool
        cases hpool
      · rw [hstore, hpools, Map.save_apply] at hpool
        split at hpool
        case isFalse =>
            rw [hnone] at hpool
            cases hpool
        case isTrue haddr =>
            cases hpool
            refine ⟨icaId, info, _, hinfo, fun hold => ?_,
              by rw [hstore, opened_infoOfIcaId, Map.save_self], hcomplete,
              haddr, haddr.trans ((hosted_ackedInfo (h.hosted icaId info hinfo)
                .pool).resolve_left hcomplete.1), rfl, rfl⟩
            obtain ⟨_, hthere⟩ := (h.known a).mpr ⟨icaId, info, hinfo, hold,
              (acked_stays h half channelId counterpartyChannelId connectionId
                hinfo hold).2.symm.trans haddr.symm⟩
            rw [hnone] at hthere
            cases hthere

theorem handshake_step (h : Enrolled net w) (hstep : w.step net ev = some w') :
    HandshakeStep net w ev w' := by
  have hmove := info_move h hstep
  refine ⟨fun icaId info hinfo half block channelId counterpartyChannelId
      connectionId hheight htime => ?_,
    fun port channelId counterpartyChannelId hostConnectionId hack => ?_,
    fun port channelId counterpartyChannelId hostConnectionId hack a p hpool =>
      ?_,
    fun a p hnone hpool => created_of_move h hmove hnone hpool,
    (enrolled_step h hstep).known,
    fun icaId info hinfo => (enrolled_step h hstep).own hinfo⟩
  · exact ⟨_, (if_pos ⟨hheight, htime⟩).trans (act_ack
      (h.valid icaId info hinfo) half channelId counterpartyChannelId
      connectionId hinfo)⟩
  · cases hmove with
    | registered _ _ hother => exact absurd hack (hother _ _ _ _)
    | kept hother => exact absurd hack (hother _ _ _ _)
    | acked icaId info half channelId' counterpartyChannelId' connectionId
        haction hinfo hstore =>
        rw [haction] at hack
        cases hack
        exact ⟨icaId, info, connectionId, half, rfl, rfl, hinfo,
          by rw [hstore, opened_infoOfIcaId]⟩
  · cases hmove with
    | registered _ _ hother => exact absurd hack (hother _ _ _ _)
    | kept hother => exact absurd hack (hother _ _ _ _)
    | acked icaId info half channelId' counterpartyChannelId' connectionId
        haction hinfo hstore =>
        obtain ⟨hsame, -⟩ | ⟨-, hnone, hpools⟩ := opened_pools w.store icaId
          (ackedInfo net icaId channelId' counterpartyChannelId' connectionId
            half info)
        · rw [hstore, hsame]
          exact hpool
        · rw [hstore, hpools, Map.save_of_ne]
          · exact hpool
          · rintro rfl
            rw [hpool] at hnone
            cases hnone

theorem enrolled_genesis (net : Network) (block : BlockInfo)
    (deployer : MessageInfo) (lsdTokenCodeId : Nat) :
    Enrolled net (genesis block deployer lsdTokenCodeId) := by
  refine ⟨sound_genesis net block deployer lsdTokenCodeId, ?_, ?_, fun a =>
    ⟨?_, ?_⟩⟩
  · intro _ _ h
    cases h
  · intro _ _ h
    cases h
  · rintro ⟨_, h⟩
    cases h
  · rintro ⟨_, _, h, -⟩
    cases h

/-- In every run, in whatever order the channels of the registered ids open
and reopen between the other events, an acknowledgement creates a pool once
and never resets it. -/
theorem handshakes_once {block : BlockInfo} {deployer : MessageInfo}
    {lsdTokenCodeId : Nat} {evs : List Event} :
    Transition.AllSteps (step net) (HandshakeStep net)
      (genesis block deployer lsdTokenCodeId) evs := by
  refine Transition.AllSteps.of_invariant (C := fun _ _ _ => True)
    (Enrolled net) ?_ (enrolled_genesis net block deployer lsdTokenCodeId)
    (.of_forall fun _ _ _ _ => trivial)
  intro w ev w' hinv hstep _
  exact ⟨enrolled_step hinv hstep, handshake_step hinv hstep⟩

end World

end NeutronContracts
