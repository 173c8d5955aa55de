/-
Shares in the era ledger.  The host is modelled by what the answered packets
make of it: the delegated total, and the shares the pool account holds with
the worth they were credited for.  On such a host an activation counts the
shares once exactly when none was credited since the snapshot of the era and
what is to be unbonded is still there.
-/
import NeutronContracts.Properties.Ledger

namespace NeutronContracts

open StakeManager Fallible

/-- Shares of one denom, and the stake that was credited for them. -/
structure Lot where
  amount : Nat
  worth : Nat

/-- The account of a pool on a host without rewards and slashing. -/
structure Host where
  delegated : Int
  /-- the shares held, by denom -/
  shares : String → Lot

namespace Host

def empty : Host := ⟨0, fun _ => ⟨0, 0⟩⟩

/-- Shares arrive that were credited with `worth`. -/
def credit (host : Host) (share : Coin) (worth : Nat) : Host :=
  let lot := host.shares share.denom
  { host with
    shares := Function.update host.shares share.denom
      ⟨lot.amount + share.amount, lot.worth + worth⟩ }

/-- Shares become a delegation again, worth what was credited for them. -/
def redeem (host : Host) (token : Coin) : Host :=
  let lot := host.shares token.denom
  if token.amount ≤ lot.amount then
    let worth := lot.worth * token.amount / lot.amount
    { delegated := host.delegated + worth
      shares := Function.update host.shares token.denom
        ⟨lot.amount - token.amount, lot.worth - worth⟩ }
  else host

/-- The host executes a message of the account `a`. -/
def execute (a : String) (host : Host) (msg : ProtobufAny) : Host :=
  match msg.value with
  | .delegate delegator _ amount =>
      if delegator = a then
        { host with delegated := host.delegated + amount.amount }
      else host
  | .undelegate delegator _ amount =>
      if delegator = a then
        { host with delegated := host.delegated - amount.amount }
      else host
  | .redeemTokenForShare delegator token =>
      if delegator = a then host.redeem token else host
  | _ => host

/-- The shares that arrive with a transfer to the account `a`. -/
def receive (a : String) (host : Host) (payload : Option SudoPayload) :
    Host :=
  match payload with
  | some payload =>
      if payload.txType = .stakeLsm ∧ payload.poolAddr = a then
        match stakeLsmCredit payload.message with
        | some (_, worth, share) => host.credit share worth
        | none => host
      else host
  | none => host

/-- The host after an event: a packet is executed when its success is
acknowledged. -/
def after (a : String) (host : Host) (w : World) (ev : Event) : Host :=
  match ev.action with
  | .answer id .success _ _ =>
      match w.pending id with
      | some packet =>
          (hostMsgs packet.msg).foldl (execute a)
            (receive a host packet.payload)
      | none => host
  | _ => host

end Host

/-- What is remembered of a run: the host, and the stake credited since the
snapshot. -/
structure Books where
  host : Host
  credited : Nat

def Books.empty : Books := ⟨Host.empty, 0⟩

namespace World

variable {net : Network} {w w' : World} {ev : Event} {a : String}
  {p p' : PoolInfo}

def keepBooks (a : String) (books : Books) (w : World) (ev : Event)
    (w' : World) : Books where
  host := books.host.after a w ev
  credited :=
    match w.store.pools a, w'.store.pools a with
    | some p, some p' => creditAfter a books.credited ev p p'
    | _, _ => books.credited

/-- The delegations an activation reads are those of the host. -/
def Faithful (a : String) (s : World × Books) (ev : Event) : Prop :=
  ∀ querier ∈ activation a ev, ∀ p ∈ s.1.store.pools a,
    ∀ total ∈ (eraTotalAmount s.1.store querier a p).toOption,
      (total : Int) = s.2.host.delegated

/-- An orderly run on such a host. -/
def LsmRun (a : String) (s : World × Books) (ev : Event) : Prop :=
  Orderly a s.1 ev ∧ Faithful a s ev

/-- Outside the correction, an activation sets the active stake to what is
delegated and bonded, less what is unbonded. -/
def CountedOnce (a : String) (s : World × Books) (ev : Event)
    (s' : World × Books) : Prop :=
  ∀ querier ∈ activation a ev, ∀ p ∈ s.1.store.pools a,
    ∀ p' ∈ s'.1.store.pools a, ∀ stackInfo ∈ s.1.store.stack,
    ∀ total ∈ (eraTotalAmount s.1.store querier a p).toOption,
      correctionTaken p stackInfo total = false →
        (p'.active : Int) = s.2.host.delegated + p'.bond - p'.unbond

/-- No share was credited since the snapshot, and no more is to be unbonded
than is delegated and bonded. -/
def NothingLate (a : String) (s : World × Books) (ev : Event) : Prop :=
  ∀ querier ∈ activation a ev, ∀ p ∈ s.1.store.pools a,
    ∀ stackInfo ∈ s.1.store.stack,
    ∀ total ∈ (eraTotalAmount s.1.store querier a p).toOption,
      correctionTaken p stackInfo total = false →
        s.2.credited = 0 ∧ (p.unbond : Int) ≤ s.2.host.delegated + p.bond

instance (a : String) (s : World × Books) (ev : Event) :
    Decidable (LsmRun a s ev) :=
  inferInstanceAs (Decidable (_ ∧ ∀ _ ∈ _, ∀ _ ∈ _, ∀ _ ∈ _, _ = _))

instance (a : String) (s : World × Books) (ev : Event) :
    Decidable (NothingLate a s ev) :=
  inferInstanceAs (Decidable (∀ _ ∈ _, ∀ _ ∈ _, ∀ _ ∈ _, ∀ _ ∈ _,
    _ → _ = _ ∧ _ ≤ _))

instance (a : String) (s : World × Books) (ev : Event)
    (s' : World × Books) : Decidable (CountedOnce a s ev s') :=
  inferInstanceAs (Decidable (∀ _ ∈ _, ∀ _ ∈ _, ∀ _ ∈ _, ∀ _ ∈ _, ∀ _ ∈ _,
    _ → _ = _))

/-- The books of a pool in order balance. -/
def AllBalanced (net : Network) (a : String) (s : World × Books) : Prop :=
  Sound net s.1 ∧ ∀ p, s.1.store.pools a = some p →
    InOrder s.1 a p ∧ Balanced p s.2.credited

theorem allBalanced_step {s s' : World × Books}
    (hinv : AllBalanced net a s)
    (hstep : Transition.track (step net) (keepBooks a) s ev = some s')
    (horderly : Orderly a s.1 ev) : AllBalanced net a s' := by
  obtain ⟨w, books⟩ := s
  obtain ⟨w', books'⟩ := s'
  obtain ⟨hworld, rfl⟩ := Transition.track_eq_some.mp hstep
  obtain ⟨hs, hI⟩ := hinv
  dsimp only at hs hI
  have horder := inOrder_step hs hworld (fun p hp => (hI p hp).1) horderly
  refine ⟨sound_step hs hworld, fun p' hp' => ⟨horder p' hp', ?_⟩⟩
  refine pool_invariant (J := fun p' =>
    w'.store.pools a = some p' →
      Balanced p' (keepBooks a books w ev w').credited)
    hs hworld hI ?_ ?_ p' hp' hp'
  · intro p p' hp hp' hpool hmove _
    simp only [keepBooks, hp, hp']
    exact balanced_of_move hpool.1.cycle hpool.2 hmove
  · intro icaId admin hp _ _ _ _ _
    exact balanced_registered icaId admin _

/-- At an activation, counting once is the same as nothing being late. -/
theorem countedOnce_iff {s s' : World × Books}
    (hinv : AllBalanced net a s)
    (hstep : Transition.track (step net) (keepBooks a) s ev = some s')
    (hfaithful : Faithful a s ev) :
    CountedOnce a s ev s' ↔ NothingLate a s ev := by
  obtain ⟨w, books⟩ := s
  obtain ⟨w', books'⟩ := s'
  obtain ⟨hworld, rfl⟩ := Transition.track_eq_some.mp hstep
  -- what the branch outside the correction computes
  have hexact : ∀ querier p p' stackInfo total,
      activation a ev = some querier → w.store.pools a = some p →
      w'.store.pools a = some p' → w.store.stack = some stackInfo →
      eraTotalAmount w.store querier a p = .ok total →
      correctionTaken p stackInfo total = false →
      p'.active = total + p.bond + books.credited - p.unbond ∧
        p'.bond = p.bond ∧ p'.unbond = p.unbond ∧
        (total : Int) = books.host.delegated := by
    intro querier p p' stackInfo total hev hp hp' hstack htotal hplain
    obtain ⟨info, id, haction⟩ := activation_eq_some.mp hev
    obtain ⟨q, stack, act, hq, hstack', hstatus, htotal', hq'⟩ :=
      active_of_step hinv.1 hworld haction
    obtain rfl := Option.some.inj (hp.symm.trans hq)
    obtain rfl := Option.some.inj (hstack.symm.trans hstack')
    obtain rfl := Except.ok.inj (htotal.symm.trans htotal')
    obtain rfl := Option.some.inj (hp'.symm.trans hq')
    have hafter := (hinv.2 p hp).2.after (.inr (.inr (.inr hstatus)))
    refine ⟨?_, rfl, rfl, hfaithful querier hev p hp _
      (toOption_eq_some.mpr htotal)⟩
    change act.newActive = _
    rw [newActive_plain act hplain]
    dsimp only at hafter
    omega
  constructor
  · intro hcounted querier hev p hp stackInfo hstack total htotal hplain
    obtain ⟨info, id, haction⟩ := activation_eq_some.mp hev
    obtain ⟨q, _, act, -, -, -, -, hp'⟩ :=
      active_of_step hinv.1 hworld haction
    have heq := hcounted querier hev p hp _ hp' stackInfo hstack total htotal
      hplain
    obtain ⟨hactive, hbond, hunbond, hdelegated⟩ := hexact querier p _
      stackInfo total hev hp hp' hstack (toOption_eq_some.mp htotal) hplain
    rw [hactive, hbond, hunbond, ← hdelegated] at heq
    rw [← hdelegated]
    dsimp only
    constructor <;> omega
  · intro hlate querier hev p hp p' hp' stackInfo hstack total htotal hplain
    obtain ⟨hnone, hleft⟩ := hlate querier hev p hp stackInfo hstack total
      htotal hplain
    obtain ⟨hactive, hbond, hunbond, hdelegated⟩ := hexact querier p p'
      stackInfo total hev hp hp' hstack (toOption_eq_some.mp htotal) hplain
    rw [← hdelegated] at hleft
    rw [hactive, hbond, hunbond, ← hdelegated]
    dsimp only at hnone
    omega

/-- In the orderly runs on a host without rewards and slashing, every
activation counts the shares once exactly when nothing is late. -/
theorem lsm_counted_once_iff {net : Network} {a : String} {block : BlockInfo}
    {info : MessageInfo} {lsdTokenCodeId : Nat} {evs : List Event}
    (hrun : Transition.AllSteps
      (Transition.track (step net) (keepBooks a))
      (fun s ev _ => LsmRun a s ev)
      (genesis block info lsdTokenCodeId, Books.empty) evs) :
    Transition.AllSteps (Transition.track (step net) (keepBooks a))
        (CountedOnce a) (genesis block info lsdTokenCodeId, Books.empty) evs ↔
      Transition.AllSteps (Transition.track (step net) (keepBooks a))
        (fun s ev _ => NothingLate a s ev)
        (genesis block info lsdTokenCodeId, Books.empty) evs :=
  Transition.AllSteps.iff_of_invariant (AllBalanced net a)
    (fun _ _ _ hinv hstep hlsm => countedOnce_iff hinv hstep hlsm.2)
    (fun _ _ _ hinv hstep hlsm _ => allBalanced_step hinv hstep hlsm.1)
    ⟨sound_genesis net block info lsdTokenCodeId, fun _ h => nomatch h⟩ hrun

/-- Shares are credited before the snapshot and redeemed before the
activation. -/
def timelyShares : List Event :=
  Sample.setup ++ [
    Sample.allowLsm,
    Sample.stake 1 1000,
    Sample.stakeLsm 1 100 "ibc/SHARE" ("channel-7", 0),
    Sample.ack 1 .success ("channel-7", 0),
    Sample.call 2 (Sample.querier 0 [] 0) (.eraUpdate Sample.pool)
      (Sample.packetId 2),
    Sample.ack 2 .success (Sample.packetId 2),
    Sample.call 2 (Sample.querier 0 [] 0) (.eraBond Sample.pool ["val1"])
      (Sample.packetId 3),
    Sample.ack 2 .success (Sample.packetId 3),
    Sample.call 2 (Sample.querier 0 [] 0)
      (.redeemTokenForShare Sample.pool [⟨"val1/1", 100⟩]) (Sample.packetId 4),
    Sample.ack 2 .success (Sample.packetId 4),
    Sample.call 3 (Sample.querier 3 [] 0) (.eraCollectWithdraw Sample.pool)
      (Sample.packetId 0),
    Sample.call 3 (Sample.querier 3 [] 0) (.eraRebond Sample.pool ["val1"])
      (Sample.packetId 0),
    Sample.call 4 (Sample.querier 4 [("val1", 1100)] 0)
      (.eraActive Sample.pool) (Sample.packetId 0)]

/-- The shares are counted once in the active stake of 1100. -/
theorem lsm_counted_once_sample :
    (Sample.run timelyShares).any (fun w =>
      (w.store.pools Sample.pool).any fun p => p.active = 1100) ∧
    Transition.AllSteps
      (Transition.track (step Sample.net) (keepBooks Sample.pool))
      (CountedOnce Sample.pool) (Sample.genesis, Books.empty) timelyShares :=
  ⟨by decide +kernel,
    (lsm_counted_once_iff (by decide +kernel)).mpr (by decide +kernel)⟩

/-- Shares are sent before the snapshot, credited after it and redeemed before
the activation. -/
def lateShares : List Event :=
  Sample.setup ++ [
    Sample.allowLsm,
    Sample.stake 1 1000,
    Sample.stakeLsm 1 100 "ibc/SHARE" ("channel-7", 0),
    Sample.call 2 (Sample.querier 0 [] 0) (.eraUpdate Sample.pool)
      (Sample.packetId 2),
    Sample.ack 2 .success (Sample.packetId 2),
    Sample.ack 2 .success ("channel-7", 0),
    Sample.call 2 (Sample.querier 0 [] 0) (.eraBond Sample.pool ["val1"])
      (Sample.packetId 3),
    Sample.ack 2 .success (Sample.packetId 3),
    Sample.call 2 (Sample.querier 0 [] 0)
      (.redeemTokenForShare Sample.pool [⟨"val1/1", 100⟩]) (Sample.packetId 4),
    Sample.ack 2 .success (Sample.packetId 4),
    Sample.call 3 (Sample.querier 3 [] 0) (.eraCollectWithdraw Sample.pool)
      (Sample.packetId 0),
    Sample.call 3 (Sample.querier 3 [] 0) (.eraRebond Sample.pool ["val1"])
      (Sample.packetId 0),
    Sample.call 4 (Sample.querier 4 [("val1", 1100)] 0)
      (.eraActive Sample.pool) (Sample.packetId 0)]

/-- Shares credited after the snapshot are counted twice. -/
theorem lsm_counted_once_fails :
    Transition.AllSteps
        (Transition.track (step Sample.net) (keepBooks Sample.pool))
        (fun s ev _ => LsmRun Sample.pool s ev)
        (Sample.genesis, Books.empty) lateShares ∧
      ¬ Transition.AllSteps
        (Transition.track (step Sample.net) (keepBooks Sample.pool))
        (CountedOnce Sample.pool) (Sample.genesis, Books.empty) lateShares := by
  decide +kernel

end World

end NeutronContracts
