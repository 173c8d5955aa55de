/-
Staking and unstaking at one rate.  Every conversion rounds in favour of the
pool, so an account whose tokens all come from its own stakes never gets
unstake records for more than it has staked.
-/
import NeutronContracts.Chain.Sound
import NeutronContracts.Lib.Fund
import NeutronContracts.LsdToken.Ledger
import NeutronContracts.StakeManager.Withdrawal

namespace NeutronContracts

open StakeManager Fallible Fund Holdings

namespace StakeManager

variable {store store' : Storage} {info : MessageInfo}
  {a recipient : String} {rsp : Response} {amount : Nat}

/-- An accepted stake mints at the rate, rounded down. -/
theorem stake_mints (h : executeStake store recipient a info =
      .ok (store', rsp)) :
    ∃ p p' coin, store.pools a = some p ∧ store'.pools a = some p' ∧
      p'.lsdToken = p.lsdToken ∧ info.funds = [coin] ∧
      rsp.messages = [⟨.wasmExecute p.lsdToken
        (.mint recipient (sharesFor calBase p.rate coin.amount)),
        none, none⟩] := by
  obtain ⟨p, coin, hp, hfunds, -, -, rfl, hmessages⟩ := executeStake_ok h
  exact ⟨p, _, coin, hp, Map.save_self, rfl, hfunds, hmessages⟩

/-- An accepted unstake records less than the worth of what it burns. -/
theorem unstake_records (h : executeUnstake store info amount a =
      .ok (store', rsp)) :
    ∃ p p' cmsFee burned, store.pools a = some p ∧
      store'.pools a = some p' ∧ p'.lsdToken = p.lsdToken ∧
      store'.amountAt (a, p'.nextUnstakeIndex) ≤
        worth calBase p.rate burned ∧
      rsp.messages = (unstakeMessages p info.sender cmsFee burned).map
        fun msg => ⟨.wasmExecute p.lsdToken msg, none, none⟩ := by
  obtain ⟨p, cmsFee, burned, token, hp, -, -, -, htoken, -, -, -, rfl,
    hmessages⟩ := executeUnstake_ok h
  refine ⟨p, _, cmsFee, burned, hp, Map.save_self, rfl, ?_, hmessages⟩
  subst htoken
  exact (amountAt_eq Map.save_self).trans_le (Nat.sub_le _ 5)

end StakeManager

namespace World

/-! ### The account of a user -/

/-- The rate of the pool, zero when there is none. -/
def rate (w : World) (a : String) : Nat :=
  ((w.store.pools a).map (·.rate)).getD 0

/-- What the user holds of the token of the pool. -/
def holding (w : World) (a user : String) : Nat :=
  ((w.store.pools a).bind fun p =>
    (w.tokens p.lsdToken).map (·.balance user)).getD 0

/-- The amount of the unstake record that was created last. -/
def newestRecord (w : World) (a : String) : Nat :=
  ((w.store.pools a).map fun p =>
    w.store.amountAt (a, p.nextUnstakeIndex)).getD 0

/-- What a user has staked in a pool, and what the unstake records that it got
for it come to. -/
structure Dealings where
  staked : Nat
  unstaked : Nat

def Dealings.none : Dealings := ⟨0, 0⟩

inductive Deal
  | stake (amount : Nat)
  | unstake
deriving DecidableEq

/-- The stake or unstake of a user in pool `a` that an event is. -/
def dealOf (user a : String) (ev : Event) : Option Deal :=
  match ev.action with
  | .execute _ info (.stake _ poolAddr) _ =>
      if info.sender = user ∧ poolAddr = a then
        some (.stake (info.funds.map (·.amount)).sum)
      else Option.none
  | .execute _ info (.unstake _ poolAddr) _ =>
      if info.sender = user ∧ poolAddr = a then some .unstake
      else Option.none
  | _ => Option.none

/-- Add up the stakes and the unstake records of a user. -/
def keepDealings (user a : String) (dealings : Dealings) (_ : World)
    (ev : Event) (w' : World) : Dealings :=
  match dealOf user a ev with
  | some (.stake amount) =>
      { dealings with staked := dealings.staked + amount }
  | some .unstake =>
      { dealings with unstaked := dealings.unstaked + w'.newestRecord a }
  | Option.none => dealings

/-- The rate stays as it is, and only by its own stakes and unstakes does the
user get any tokens. -/
structure OnItsOwn (user a : String) (w : World) (ev : Event) (w' : World) :
    Prop where
  rate : w'.rate a = w.rate a
  others : dealOf user a ev = Option.none →
    w'.holding a user ≤ w.holding a user

instance (user a : String) (w : World) (ev : Event) (w' : World) :
    Decidable (OnItsOwn user a w ev w') :=
  decidable_of_iff (w'.rate a = w.rate a ∧ (dealOf user a ev = Option.none →
      w'.holding a user ≤ w.holding a user))
    ⟨fun h => ⟨h.1, h.2⟩, fun h => ⟨h.rate, h.others⟩⟩

/-- The user as a trader with the pool. -/
def trader (user a : String) (w : World) (dealings : Dealings) : Trader where
  paid := dealings.staked
  held := w.holding a user
  received := dealings.unstaked

variable {net : Network} {w w' : World} {ev : Event} {a user x : String}
  {token : LsdToken.Token} {delivery : Delivery} {p : PoolInfo}
  {dealings : Dealings}

/-! ### Messages to the token -/

/-- A message of the stake manager to a token makes its move of the
balances. -/
theorem deliver_posted {msg : LsdTokenMsg}
    (h : deliver net delivery w ⟨.wasmExecute x msg, none, none⟩ = some w') :
    ∃ token token', w.tokens x = some token ∧ w'.tokens x = some token' ∧
      w'.store = w.store ∧
      LsdToken.Posted token.balance ((tokenCall msg).move net.self)
        token'.balance := by
  simp only [deliver] at h
  have hstore := (runToken_quiet h).2.1
  unfold runToken at h
  split at h
  case h_1 => cases h
  case h_2 token htoken =>
      split at h
      case h_1 => cases h
      case h_2 token' received hcall =>
          cases h
          exact ⟨token, token', htoken, Map.save_self, hstore,
            LsdToken.execute_posted hcall⟩

theorem accepted_of_step {querier : Querier} {info : MessageInfo}
    {msg : ExecuteMsg} {id : PacketId} (hstep : w.step net ev = some w')
    (haction : ev.action = .execute querier info msg id) :
    ∃ env store rsp delivery, execute w.store querier env info msg =
        .ok (store, rsp) ∧
      deliverAll net delivery
        { w with block := ev.block, store := store } rsp.messages =
          some w' := by
  obtain ⟨-, -, hact⟩ := step_eq_some hstep
  simp only [haction, act] at hact
  split at hact
  case isFalse => cases hact
  case isTrue =>
      unfold commit at hact
      split at hact
      case h_1 => cases hact
      case h_2 store rsp hcall => exact ⟨_, store, rsp, _, hcall, hact⟩

theorem holding_of_token (hp : w.store.pools a = some p)
    (htoken : w.tokens p.lsdToken = some token) :
    w.holding a user = token.balance user := by
  rw [holding, hp]
  change ((w.tokens p.lsdToken).map _).getD 0 = _
  rw [htoken]
  rfl

theorem rate_of_pool (hp : w.store.pools a = some p) : w.rate a = p.rate := by
  rw [rate, hp]
  rfl

/-! ### Steps -/

theorem trade_of_stake {querier : Querier} {info : MessageInfo}
    {recipient : String} {id : PacketId} (hstep : w.step net ev = some w')
    (haction : ev.action = .execute querier info (.stake recipient a) id) :
    Trade calBase (w.rate a) (trader user a w dealings)
      (trader user a w' { dealings with
        staked := dealings.staked + (info.funds.map (·.amount)).sum }) := by
  obtain ⟨env, store, rsp, delivery, hcall, hdeliver⟩ :=
    accepted_of_step hstep haction
  obtain ⟨p, p', coin, hp, hp', htoken, hfunds, hmessages⟩ :=
    stake_mints (show executeStake w.store recipient a info = _ from hcall)
  rw [hmessages] at hdeliver
  obtain ⟨next, hfirst, hrest⟩ := deliverAll_cons hdeliver
  cases hrest
  obtain ⟨token, token', hbefore, hafter, hstore, -, hbalance⟩ :=
    deliver_posted hfirst
  rw [← htoken] at hafter
  rw [← congrArg (·.pools a) hstore] at hp'
  have hsum : (info.funds.map (·.amount)).sum = coin.amount := by
    simp [hfunds]
  rw [rate_of_pool hp, hsum]
  apply Trade.buy
  change w'.holding a user ≤ w.holding a user + _
  rw [holding_of_token hp hbefore, holding_of_token hp' hafter, hbalance]
  exact add_le user

/-- The messages of an unstake take at least what is burned. -/
theorem delivered_unstake {cmsFee burned : Nat}
    (h : deliverAll net delivery w ((unstakeMessages p user cmsFee burned).map
      fun msg => ⟨.wasmExecute p.lsdToken msg, none, none⟩) = some w') :
    ∃ token token', w.tokens p.lsdToken = some token ∧
      w'.tokens p.lsdToken = some token' ∧ w'.store = w.store ∧
      token'.balance user + burned ≤ token.balance user := by
  unfold unstakeMessages at h
  by_cases hfee : 0 < cmsFee
  · rw [if_pos hfee] at h
    obtain ⟨middle, hfirst, h⟩ := deliverAll_cons h
    obtain ⟨last, hsecond, h⟩ := deliverAll_cons h
    cases h
    obtain ⟨token, middle', htoken, hmiddle, hstore, hcovered, hbalance⟩ :=
      deliver_posted hfirst
    obtain ⟨middle'', token', hmiddle', htoken', hstore', hburned,
      hbalance'⟩ := deliver_posted hsecond
    obtain rfl := Option.some.inj (hmiddle.symm.trans hmiddle')
    refine ⟨token, token', htoken, htoken', hstore'.trans hstore, ?_⟩
    rw [hbalance']
    refine (sub_self_add hburned).trans_le ?_
    rw [hbalance]
    exact transfer_le hcovered
  · rw [if_neg hfee] at h
    obtain ⟨last, hfirst, h⟩ := deliverAll_cons h
    cases h
    obtain ⟨token, token', htoken, htoken', hstore, hburned, hbalance⟩ :=
      deliver_posted hfirst
    refine ⟨token, token', htoken, htoken', hstore, ?_⟩
    rw [hbalance]
    exact (sub_self_add hburned).le

theorem trade_of_unstake {querier : Querier} {info : MessageInfo}
    {amount : Nat} {id : PacketId} (hstep : w.step net ev = some w')
    (haction : ev.action = .execute querier info (.unstake amount a) id) :
    Trade calBase (w.rate a) (trader info.sender a w dealings)
      (trader info.sender a w' { dealings with
        unstaked := dealings.unstaked + w'.newestRecord a }) := by
  obtain ⟨env, store, rsp, delivery, hcall, hdeliver⟩ :=
    accepted_of_step hstep haction
  obtain ⟨p, p', cmsFee, burned, hp, hp', htoken, hrecord, hmessages⟩ :=
    unstake_records (show executeUnstake w.store info amount a = _ from hcall)
  rw [hmessages] at hdeliver
  obtain ⟨token, token', hbefore, hafter, hstore, hburned⟩ :=
    delivered_unstake hdeliver
  rw [← htoken] at hafter
  rw [← congrArg (·.amountAt) hstore] at hrecord
  rw [← congrArg (·.pools a) hstore] at hp'
  have hnewest : w'.newestRecord a =
      w'.store.amountAt (a, p'.nextUnstakeIndex) := by
    rw [newestRecord, hp']
    rfl
  rw [rate_of_pool hp, hnewest]
  apply Trade.sell
  · change w'.holding a info.sender + burned ≤ w.holding a info.sender
    rw [holding_of_token hp hbefore, holding_of_token hp' hafter]
    exact hburned
  · exact hrecord

/-- Every step of a user on its own is a trade with the pool. -/
theorem trade_of_step (hstep : w.step net ev = some w')
    (hown : OnItsOwn user a w ev w') :
    Trade calBase (w.rate a) (trader user a w dealings)
      (trader user a w' (keepDealings user a dealings w ev w')) := by
  cases hdeal : dealOf user a ev with
  | none =>
      simp only [keepDealings, hdeal]
      exact .lose (hown.others hdeal)
  | some deal =>
      simp only [keepDealings, hdeal]
      unfold dealOf at hdeal
      split at hdeal
      case h_1 querier info recipient poolAddr id haction =>
          split at hdeal
          case isFalse => cases hdeal
          case isTrue hmine =>
              obtain ⟨rfl, rfl⟩ := hmine
              cases hdeal
              exact trade_of_stake hstep haction
      case h_2 querier info amount poolAddr id haction =>
          split at hdeal
          case isFalse => cases hdeal
          case isTrue hmine =>
              obtain ⟨rfl, rfl⟩ := hmine
              cases hdeal
              exact trade_of_unstake hstep haction
      case h_3 => cases hdeal

/-- A user that starts without tokens and gets none from others never gets
unstake records for more than it has staked, as long as the rate stays as it
is: whatever else happens, and however the amounts are split. -/
theorem no_profit {w₀ : World} {evs : List Event}
    (hstart : w₀.holding a user = 0)
    (hown : Transition.AllSteps (step net) (OnItsOwn user a) w₀ evs)
    (hrun : Transition.exec (Transition.track (step net)
      (keepDealings user a)) (w₀, Dealings.none) evs = some (w, dealings)) :
    dealings.unstaked ≤ dealings.staked := by
  let Inv : World × Dealings → Prop := fun s =>
    (trader user a s.1 s.2).Even calBase (s.1.rate a)
  have hinit : Inv (w₀, Dealings.none) := by
    simp [Inv, Trader.Even, trader, hstart, Dealings.none]
  have heven : Inv (w, dealings) := by
    refine Transition.AllSteps.invariant_last Inv ?_ hinit
      (hown.tracked Dealings.none) hrun
    rintro ⟨v, kept⟩ ev ⟨v', kept'⟩ heven hstep hown
    obtain ⟨hmove, rfl⟩ := Transition.track_eq_some.mp hstep
    have hafter := (trade_of_step hmove hown).even heven
    rw [← hown.rate] at hafter
    exact hafter
  exact heven.received_le (by decide)

/-- A user stakes, lets the stake manager burn and unstakes twice. -/
def Sample.dealing : List Event :=
  [Sample.stake 1 1000, Sample.allowBurn 1 1000, Sample.unstake 1 200,
    Sample.unstake 1 300]

theorem no_profit_sample : ∃ w₀ w dealings,
    Sample.run Sample.setup = some w₀ ∧
    Transition.exec (Transition.track (step Sample.net)
      (keepDealings Sample.user Sample.pool)) (w₀, Dealings.none)
        Sample.dealing = some (w, dealings) ∧
    dealings.unstaked ≤ dealings.staked := by
  obtain ⟨w₀, p, hw, -, htest⟩ := Sample.exists_of_run Sample.setup
    (fun w _ => decide (w.holding Sample.pool Sample.user = 0) &&
      decide (Transition.AllSteps (step Sample.net)
        (OnItsOwn Sample.user Sample.pool) w Sample.dealing) &&
      (Transition.exec (step Sample.net) w Sample.dealing).isSome)
    (by decide +kernel)
  simp only [Bool.and_eq_true, decide_eq_true_eq,
    Option.isSome_iff_exists] at htest
  obtain ⟨⟨hstart, hown⟩, w, hrun⟩ := htest
  obtain ⟨dealings, htracked⟩ :=
    Transition.exists_track_of_exec hrun Dealings.none
  exact ⟨w₀, w, dealings, hw, htracked, no_profit hstart hown htracked⟩

end World

end NeutronContracts
