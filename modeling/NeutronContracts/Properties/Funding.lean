/-
Withdrawals are funded.  What the account of a pool on the host has received
covers what its steps have delegated, what was paid, and the claims of all
unstakers whose era was bonded.
-/
import NeutronContracts.Chain.HostAccount
import NeutronContracts.Properties.Payment
import NeutronContracts.Properties.Unbonding

namespace NeutronContracts

open StakeManager Outstanding

/-- A sum over a set that a list covers. -/
theorem sum_le_sum_of_covers {ι : Type} [DecidableEq ι] {s : Finset ι}
    {l : List ι} (f : ι → Nat) (h : ∀ i ∈ s, i ∈ l) :
    ∑ i ∈ s, f i ≤ (l.map f).sum := by
  have hsub : s ⊆ l.toFinset := fun i hi => List.mem_toFinset.mpr (h i hi)
  rw [Finset.sum_list_map_count]
  refine (Finset.sum_le_sum_of_subset hsub).trans ?_
  refine Finset.sum_le_sum fun i hi => ?_
  have hcount : 1 ≤ l.count i :=
    List.count_pos_iff.mpr (List.mem_toFinset.mp hi)
  simpa using Nat.mul_le_mul_right (f i) hcount

/-- What the items of a list add up to, counted along a list that covers
them. -/
theorem sum_le_sum_counted {ι : Type} [BEq ι] [LawfulBEq ι]
    {keys l : List ι} (f : ι → Nat) (h : ∀ key ∈ keys, key ∈ l) :
    (keys.map f).sum ≤ (l.map fun key => keys.count key * f key).sum := by
  induction keys with
  | nil => exact Nat.zero_le _
  | cons first rest ih =>
      rw [List.forall_mem_cons] at h
      have hfirst : f first ≤
          (l.map fun key => (if first == key then 1 else 0) * f key).sum := by
        apply List.le_sum_of_mem
        exact List.mem_map.mpr ⟨first, h.1, by simp⟩
      simp only [List.map_cons, List.sum_cons, List.count_cons, Nat.add_mul,
        List.sum_map_add]
      rw [Nat.add_comm]
      exact Nat.add_le_add (ih h.2) hfirst

namespace UnbondBooks

/-- The entries that were bonded. -/
def settled (books : UnbondBooks) : List Entry :=
  books.bonded.flatMap Prod.snd

/-- What the bonded snapshots have left in the account of the pool. -/
def kept (books : UnbondBooks) : Nat :=
  (books.bonded.map fun batch => batch.1.unbond).sum

variable {books : UnbondBooks} {a : String} {p p' : PoolInfo}

theorem tokenSum_settled_le
    (h : ∀ batch ∈ books.bonded, tokenSum batch.2 ≤ batch.1.unbond) :
    tokenSum books.settled ≤ books.kept := by
  unfold settled kept
  generalize books.bonded = bonded at h
  induction bonded with
  | nil => rfl
  | cons batch rest ih =>
      rw [List.forall_mem_cons] at h
      rw [List.flatMap_cons, tokenSum_append, List.map_cons, List.sum_cons]
      exact Nat.add_le_add h.1 (ih h.2)

theorem bonded_ofCall (books : UnbondBooks) (msg : ExecuteMsg) :
    (books.ofCall a p p' msg).bonded = books.bonded := by
  unfold ofCall
  split
  · split <;> rfl
  · split <;> rfl
  · rfl

/-- A bond step that succeeds settles its snapshot, and no other answer
settles anything. -/
theorem bonded_ofAnswer (books : UnbondBooks) (kind : Option TxType)
    (answer : Answer) :
    (kind = some .eraBond ∧ answer = .success ∧
      (books.ofAnswer p kind answer).bonded =
        books.bonded ++ [(p.eraSnapshot, books.taken)]) ∨
    ¬ (kind = some .eraBond ∧ answer = .success) ∧
      (books.ofAnswer p kind answer).bonded = books.bonded := by
  unfold ofAnswer
  split
  · right
    refine ⟨by simp, ?_⟩
    split <;> rfl
  · by_cases hsuccess : answer = .success
    · exact .inl ⟨rfl, hsuccess, by rw [if_pos hsuccess]; rfl⟩
    · exact .inr ⟨fun h => hsuccess h.2, by rw [if_neg hsuccess]⟩
  · rename_i hkind
    exact .inr ⟨fun h => hkind h.1, rfl⟩

/-- The records whose entries were bonded. -/
def keys (books : UnbondBooks) (a : String) : List (String × Nat) :=
  books.settled.map fun entry => (a, entry.1)

theorem mem_keys_of_bonded {batch : EraSnapshot × List Entry}
    {entry : Entry} (hbatch : batch ∈ books.bonded) (hentry : entry ∈ batch.2) :
    (a, entry.1) ∈ books.keys a :=
  List.mem_map.mpr
    ⟨entry, List.mem_flatMap.mpr ⟨batch, hbatch, hentry⟩, rfl⟩

theorem mem_all_of_settled {entry : Entry} (h : entry ∈ books.settled) :
    entry ∈ books.all :=
  List.mem_append_left _ (List.mem_append_left _ h)

/-- Only an unstake makes an entry. -/
theorem mem_all_ofCall {msg : ExecuteMsg} {entry : Entry}
    (h : entry ∈ (books.ofCall a p p' msg).all) :
    entry ∈ books.all ∨ (∃ amount, msg = .unstake amount a) ∧
      entry.1 = p'.nextUnstakeIndex := by
  unfold ofCall at h
  split at h
  · split at h
    · rename_i hpool
      rw [all_queue, List.mem_append, List.mem_singleton] at h
      rcases h with h | rfl
      · exact .inl h
      · subst hpool
        exact .inr ⟨⟨_, rfl⟩, rfl⟩
    · exact .inl h
  · split at h
    · exact .inl (all_take books ▸ h)
    · exact .inl h
  · exact .inl h

theorem all_ofAnswer (books : UnbondBooks) (kind : Option TxType)
    (answer : Answer) : (books.ofAnswer p kind answer).all = books.all := by
  unfold ofAnswer
  split
  · split
    · rfl
    · exact all_giveBack books
  · split
    · exact all_settle books _
    · rfl
  · rfl

end UnbondBooks

theorem Staged.mem_all {books : UnbondBooks} {era index : Nat}
    {info : UnstakeInfo} (h : Staged books era index info) :
    (index, info.amount + 5) ∈ books.all := by
  rcases h with ⟨batch, hbatch, hmem⟩ | ⟨htaken, -⟩ | ⟨hqueued, -⟩
  · exact UnbondBooks.mem_all_of_settled
      (List.mem_flatMap.mpr ⟨batch, hbatch, hmem⟩)
  · exact List.mem_append_left _ (List.mem_append_right _ htaken)
  · exact List.mem_append_right _ hqueued

/-- A withdrawal comes from the call that lists its records. -/
theorem Packet.payout_origin {packet : Packet} {payout : Payout}
    (h : packet.payout = some payout) :
    packet.origin = .withdraw payout.pool payout.receiver payout.indexes := by
  unfold Packet.payout at h
  split at h
  · rename_i horigin
    rw [Option.ite_none_right_eq_some] at h
    obtain ⟨-, hpayout⟩ := h
    obtain rfl := Option.some.inj hpayout
    exact horigin
  · cases h

/-- What the account holds for the running era: the bond between its transfer
and its delegation, and the rewards between theirs. -/
def StakeManager.PoolInfo.inHand (p : PoolInfo) : Nat :=
  match p.status with
  | .eraUpdateEnded => p.eraSnapshot.bond
  | .bondStarted => p.eraSnapshot.bond
  | .withdrawEnded => p.eraSnapshot.restakeAmount
  | _ => 0

/-- What was delegated, what the bonded snapshots have left, and what is in
hand was received. -/
def Ledger (p : PoolInfo) (books : UnbondBooks) (host : HostAccount) : Prop :=
  host.staked + books.kept + p.inHand ≤ host.received

section

variable {p p' : PoolInfo} {books : UnbondBooks} {host : HostAccount}

theorem Ledger.of_same (h : Ledger p books host)
    (hstatus : p'.status = p.status)
    (hsnapshot : p'.eraSnapshot = p.eraSnapshot) : Ledger p' books host := by
  have hhand : p'.inHand = p.inHand := by
    unfold PoolInfo.inHand
    rw [hstatus, hsnapshot]
  rwa [Ledger, hhand]

/-- A status in which nothing is in hand. -/
theorem Ledger.of_nothing (h : Ledger p books host)
    (hnothing : p'.inHand = 0) : Ledger p' books host := by
  have hle : host.staked + books.kept + p.inHand ≤ host.received := h
  rw [Ledger, hnothing]
  omega

/-- Entries that are only moved inside the books. -/
theorem Ledger.of_bonded {books' : UnbondBooks} (h : Ledger p books host)
    (hbonded : books'.bonded = books.bonded) : Ledger p books' host := by
  have hkept : books'.kept = books.kept := by
    unfold UnbondBooks.kept
    rw [hbonded]
  rwa [Ledger, hkept]

end

namespace World

variable {net : Network} {w w' : World} {ev : Event} {a : String}
  {p p' : PoolInfo} {books : UnbondBooks} {host : HostAccount}
  {payments : Payments} {id : PacketId} {answer : Answer} {packet : Packet}
  {payload : SudoPayload} {querier : Querier} {info : MessageInfo}
  {msg : ExecuteMsg} {bankAccepts : Bool}

/-! ### The account along a step -/

theorem keepHost_execute (haction : ev.action = .execute querier info msg id) :
    keepHost a host w ev w' = host := by
  simp [keepHost, haction]

theorem keepHost_idle (hanswer : ∀ id answer querier bankAccepts,
      ev.action ≠ .answer id answer querier bankAccepts) :
    keepHost a host w ev w' = host := by
  unfold keepHost
  split
  · rename_i haction
    exact absurd haction (hanswer _ _ _ _)
  · rfl

theorem keepHost_failed
    (haction : ev.action = .answer id answer querier bankAccepts)
    (hfailed : answer ≠ .success) : keepHost a host w ev w' = host := by
  unfold keepHost
  rw [haction]
  cases answer with
  | success => exact absurd rfl hfailed
  | error => rfl
  | timeout => rfl

theorem keepHost_success (hp : w.store.pools a = some p)
    (haction : ev.action = .answer id .success querier bankAccepts)
    (hpacket : w.pending id = some packet) :
    keepHost a host w ev w' = host.settle a p.ibcDenom packet := by
  simp [keepHost, haction, hpacket, hp]

/-- The account of a pool that is not there is left alone. -/
theorem keepHost_missing (hp : w.store.pools a = none) :
    keepHost a host w ev w' = host := by
  unfold keepHost
  split
  · split
    · rename_i hsome
      cases hp.symm.trans hsome
    · rfl
  · rfl

/-- An event that is neither a call nor an answer writes nothing into the
books. -/
theorem keepUnbonds_idle (hp : w.store.pools a = some p)
    (hp' : w'.store.pools a = some p')
    (hexecute : ∀ querier info msg id,
      ev.action ≠ .execute querier info msg id)
    (hanswer : ∀ id answer querier bankAccepts,
      ev.action ≠ .answer id answer querier bankAccepts) :
    keepUnbonds a books w ev w' = books := by
  unfold keepUnbonds
  rw [hp, hp']
  dsimp only
  split
  · rename_i haction
    exact absurd haction (hexecute _ _ _ _)
  · rename_i haction
    exact absurd haction (hanswer _ _ _ _)
  · rfl

/-- A pool that is not there has no books. -/
theorem keepUnbonds_missing (hp' : w'.store.pools a = none) :
    keepUnbonds a books w ev w' = UnbondBooks.empty := by
  unfold keepUnbonds
  rw [hp']
  cases w.store.pools a <;> rfl

/-! ### The ledger -/

/-- A step of the era cycle moves no coins; with nothing left over from an
earlier attempt there is nothing in hand that was not received. -/
theorem ledger_of_era {sent : Option SubMsg} (hp : w.store.pools a = some p)
    (h : Ledger p books host) (hleft : NothingLeft a w ev)
    (haction : ev.action = .execute querier info msg id)
    (hera : EraStep w.store querier ⟨ev.block, net.self⟩ a p msg sent p') :
    Ledger p' books host := by
  cases hera with
  | init => exact h.of_nothing rfl
  | migrate => exact h.of_nothing rfl
  | retry => exact h
  | eraUpdate hstatus hupdate hbond => exact h.of_nothing hbond
  | eraUpdateSent => exact h.of_nothing rfl
  | eraBond hstatus =>
      simpa [Ledger, PoolInfo.inHand, hstatus] using h
  | collect hstatus hinfo hamount =>
      refine h.of_nothing ?_
      exact hleft querier (by simp [collecting, haction]) p hp _ hinfo
        (by rw [hamount]; rfl)
  | collectSent => exact h.of_nothing rfl
  | rebond => exact h.of_nothing rfl
  | rebondSent => exact h
  | active => exact h.of_nothing rfl

/-- The success of a packet of a step brings what the books and the next step
take. -/
theorem ledger_of_success {height : Nat} (ho : InOrder w a p)
    (h : Ledger p books host) (hl : Loaded w a p)
    (hpacket : w.pending id = some packet)
    (hpayload : packet.payload = some payload) (hpool : payload.poolAddr = a)
    (hera : EraAnswer height p payload .success p') :
    Ledger p' (books.ofAnswer p (packet.kind a) .success)
      (host.settle a p.ibcDenom packet) := by
  have hkind : packet.kind a = some payload.txType :=
    Packet.kind_eq_some.mpr ⟨payload, hpayload, hpool, rfl⟩
  have hcargo := hl id packet _ hpacket hkind
  have hawaited : payload.txType.isEra = true →
      awaited p.status = some payload.txType := fun hkind =>
    (ho.cycle.awaited_of_packet hpacket hpayload hpool hkind).2
  have hle : host.staked + books.kept + p.inHand ≤ host.received := h
  rw [hkind]
  cases hera with
  | setWithdraw htype =>
      rw [htype] at hkind hcargo
      have htaken : packet.msg.takenFrom a = 0 := hcargo
      simp only [Ledger, HostAccount.settle, hkind, htype, htaken,
        UnbondBooks.ofAnswer, PoolInfo.inHand]
      omega
  | setWithdrawFailed htype hfailed => exact absurd rfl hfailed
  | eraUpdate htype =>
      rw [htype] at hkind hcargo hawaited
      obtain ⟨htaken, hbrought⟩ := hcargo
      simp only [Ledger, HostAccount.settle, hkind, htype, htaken,
        UnbondBooks.ofAnswer, if_true, PoolInfo.inHand]
      omega
  | eraUpdateFailed htype hfailed => exact absurd rfl hfailed
  | eraBond htype hbond hunbond =>
      rw [htype] at hkind hcargo hawaited
      have hstarted := status_of_awaited.2.1.mp (hawaited rfl)
      have hnet : packet.msg.takenFrom a + p.eraSnapshot.unbond ≤
        packet.msg.broughtTo a p.ibcDenom + p.eraSnapshot.bond := hcargo
      have hhand : p.inHand = p.eraSnapshot.bond := by
        simp [PoolInfo.inHand, hstarted]
      simp only [Ledger, HostAccount.settle, hkind, htype,
        UnbondBooks.ofAnswer, if_true, UnbondBooks.settle, UnbondBooks.kept,
        List.map_append, List.sum_append, List.map_cons, List.map_nil,
        List.sum_cons, List.sum_nil, PoolInfo.inHand]
      simp only [UnbondBooks.kept] at hle
      omega
  | eraBondFailed htype hfailed => exact absurd rfl hfailed
  | collect htype =>
      rw [htype] at hkind hcargo
      obtain ⟨htaken, hbrought⟩ := hcargo
      simp only [Ledger, HostAccount.settle, hkind, htype, htaken,
        UnbondBooks.ofAnswer, PoolInfo.inHand]
      omega
  | collectFailed htype hfailed => exact absurd rfl hfailed
  | rebond htype =>
      rw [htype] at hkind hcargo hawaited
      have hended := status_of_awaited.2.2.2.mp (hawaited rfl)
      have htaken : packet.msg.takenFrom a = p.eraSnapshot.restakeAmount :=
        hcargo
      have hhand : p.inHand = p.eraSnapshot.restakeAmount := by
        simp [PoolInfo.inHand, hended]
      simp only [Ledger, HostAccount.settle, hkind, htype,
        UnbondBooks.ofAnswer, PoolInfo.inHand]
      omega
  | rebondFailed htype hfailed => exact absurd rfl hfailed

/-- The failure of a packet of a step brings nothing and takes nothing. -/
theorem ledger_of_failed {height : Nat} (ho : InOrder w a p)
    (h : Ledger p books host) (hpacket : w.pending id = some packet)
    (hpayload : packet.payload = some payload) (hpool : payload.poolAddr = a)
    (hfailed : answer ≠ .success)
    (hera : EraAnswer height p payload answer p') : Ledger p' books host := by
  have hawaited : payload.txType.isEra = true →
      awaited p.status = some payload.txType := fun hkind =>
    (ho.cycle.awaited_of_packet hpacket hpayload hpool hkind).2
  cases hera with
  | setWithdraw => exact absurd rfl hfailed
  | setWithdrawFailed => exact h.of_nothing rfl
  | eraUpdate => exact absurd rfl hfailed
  | eraUpdateFailed => exact h.of_nothing rfl
  | eraBond => exact absurd rfl hfailed
  | eraBondFailed htype =>
      rw [htype] at hawaited
      have hstarted := status_of_awaited.2.1.mp (hawaited rfl)
      simpa [Ledger, PoolInfo.inHand, hstarted] using h
  | collect => exact absurd rfl hfailed
  | collectFailed => exact h.of_nothing rfl
  | rebond => exact absurd rfl hfailed
  | rebondFailed htype =>
      rw [htype] at hawaited
      have hended := status_of_awaited.2.2.2.mp (hawaited rfl)
      exact h.of_same hended.symm rfl

/-- A packet that belongs to no step stakes nothing. -/
theorem settle_plain (host : HostAccount) (hcargo : ∀ txType ∈ packet.kind a,
      txType.isEra = false ∧ Cargo a p packet txType) :
    (host.settle a p.ibcDenom packet).staked = host.staked ∧
      host.received ≤ (host.settle a p.ibcDenom packet).received := by
  cases hsome : packet.kind a with
  | none =>
      simp only [HostAccount.settle, hsome]
      split
      · exact ⟨rfl, le_rfl⟩
      · exact ⟨rfl, le_rfl⟩
  | some txType =>
      obtain ⟨hplain, htaken⟩ := hcargo txType hsome
      cases txType with
      | eraUpdate => cases hplain
      | eraBond => cases hplain
      | eraCollectWithdraw => cases hplain
      | eraRebond => cases hplain
      | userWithdraw => simp [HostAccount.settle, hsome]
      | _ =>
          have hnone : packet.msg.takenFrom a = 0 := htaken
          simp [HostAccount.settle, hsome, hnone]

/-- Its answer keeps the ledger. -/
theorem ledger_of_plain (hp : w.store.pools a = some p)
    (h : Ledger p books host) (hl : Loaded w a p)
    (haction : ev.action = .answer id answer querier bankAccepts)
    (hpacket : w.pending id = some packet)
    (hkind : ∀ txType ∈ packet.kind a, txType.isEra = false) :
    Ledger p books (keepHost a host w ev w') := by
  have hle : host.staked + books.kept + p.inHand ≤ host.received := h
  by_cases hsuccess : answer = .success
  · subst hsuccess
    rw [keepHost_success hp haction hpacket]
    have hstaked := settle_plain host fun txType hsome =>
      ⟨hkind txType hsome, hl id packet txType hpacket hsome⟩
    rw [Ledger, hstaked.1]
    exact hle.trans hstaked.2
  · rw [keepHost_failed haction hsuccess]
    exact h

/-- Every step of an orderly run keeps the ledger. -/
theorem ledger_of_move (hp : w.store.pools a = some p)
    (hp' : w'.store.pools a = some p') (ho : InOrder w a p)
    (h : Ledger p books host) (hl : Loaded w a p)
    (hleft : NothingLeft a w ev) (hmove : PoolMove net w ev w' a p p') :
    Ledger p' (keepUnbonds a books w ev w') (keepHost a host w ev w') := by
  cases hmove with
  | executed haction hexec hsends =>
      rw [keepUnbonds_of_call hp hp' haction, keepHost_execute haction]
      refine Ledger.of_bonded ?_ (UnbondBooks.bonded_ofCall books _)
      rcases hexec.calm_or_era with hcalm | hera
      · exact h.of_same hcalm.status hcalm.snapshot
      · exact ledger_of_era hp h hleft haction hera
  | @answered _ answer _ _ packet payload _ haction hpacket hpayload hpool
      hanswer hpending =>
      have hkind : packet.kind a = some payload.txType :=
        Packet.kind_eq_some.mpr ⟨_, hpayload, hpool, rfl⟩
      rw [keepUnbonds_of_answer hp hp' haction hpacket]
      rcases hanswer.calm_or_era with hcalm | hera
      · have hplain : payload.txType.isStep = false := by
          rw [TxType.isStep, Bool.or_eq_false_iff]
          exact hcalm.kind
        rw [ofAnswer_of_plain (by simpa [hkind] using hplain)]
        refine Ledger.of_same ?_ hcalm.status hcalm.snapshot
        exact ledger_of_plain hp h hl haction hpacket
          (by simpa [hkind] using hcalm.kind.1)
      · by_cases hsuccess : answer = .success
        · subst hsuccess
          rw [keepHost_success hp haction hpacket]
          exact ledger_of_success ho h hl hpacket hpayload hpool hera
        · rw [keepHost_failed haction hsuccess]
          have hfailed := ledger_of_failed ho h hpacket hpayload hpool
            hsuccess hera
          rcases UnbondBooks.bonded_ofAnswer (p := p) books (packet.kind a)
            answer with ⟨-, hcontra, -⟩ | ⟨-, hsame⟩
          · exact absurd hcontra hsuccess
          · exact hfailed.of_bonded hsame
  | answeredElsewhere haction hpacket helsewhere hpending =>
      have hkind := Packet.kind_elsewhere helsewhere
      rw [keepUnbonds_of_answer hp hp' haction hpacket,
        ofAnswer_of_plain (by simp [hkind])]
      exact ledger_of_plain hp h hl haction hpacket (by simp [hkind])
  | @vain _ _ _ _ packet payload haction hpacket hpayload hpool hvain
      hpending =>
      have hplain := ho.cycle.not_vain hp hpacket hpayload hpool hvain
      have hkind : packet.kind a = some payload.txType :=
        Packet.kind_eq_some.mpr ⟨_, hpayload, hpool, rfl⟩
      rw [keepUnbonds_of_answer hp hp' haction hpacket,
        ofAnswer_of_plain (by simpa [hkind] using hplain)]
      rw [TxType.isStep, Bool.or_eq_false_iff] at hplain
      exact ledger_of_plain hp h hl haction hpacket
        (by simpa [hkind] using hplain.1)
  | idle hexecute hanswer hpending =>
      rw [keepUnbonds_idle hp hp' hexecute hanswer, keepHost_idle hanswer]
      exact h

/-! ### What the books say of each other -/

/-- The books of the unstakes, those of the payments and the account agree on
pool `a`: a record is worth less than its entry, only records that were bonded
are withdrawn, and the account has paid no more than the records were paid. -/
structure Entered (a : String) (w : World) (books : UnbondBooks)
    (payments : Payments) (host : HostAccount) : Prop where
  made : ∀ entry ∈ books.all, payments.made (a, entry.1) ≤ entry.2
  claimed : ∀ id payout, w.payouts id = some payout → payout.pool = a →
    ∀ key ∈ payout.keys, key ∈ books.keys a
  paid : host.paid ≤ ((books.keys a).map payments.paid).sum

/-- What is settled stays settled. -/
theorem keys_grow (hs : Sound net w) (hstep : w.step net ev = some w')
    (habsent : w.store.pools a = none → books = UnbondBooks.empty) :
    ∃ more, (keepUnbonds a books w ev w').keys a = books.keys a ++ more := by
  cases hp : w.store.pools a with
  | none =>
      refine ⟨[], ?_⟩
      simp [keepUnbonds, hp, habsent hp]
  | some p =>
      obtain ⟨p', hp'⟩ := pool_persists hs hstep hp
      have hsame : ∀ {books' : UnbondBooks}, books'.bonded = books.bonded →
          ∃ more, books'.keys a = books.keys a ++ more := by
        intro books' hbonded
        refine ⟨[], ?_⟩
        simp [UnbondBooks.keys, UnbondBooks.settled, hbonded]
      unfold keepUnbonds
      rw [hp, hp']
      dsimp only
      split
      · exact hsame (UnbondBooks.bonded_ofCall books _)
      · rename_i id answer _ _ _
        rcases UnbondBooks.bonded_ofAnswer (p := p) books
          ((w.pending id).bind (·.kind a)) answer with
          ⟨-, -, hbonded⟩ | ⟨-, hbonded⟩
        · refine ⟨books.taken.map fun entry => (a, entry.1), ?_⟩
          simp [UnbondBooks.keys, UnbondBooks.settled, hbonded]
        · exact hsame hbonded
      · exact hsame rfl

/-- A new entry comes with its record. -/
theorem mem_all_of_step (hs : Sound net w) (hstep : w.step net ev = some w')
    {entry : Entry} (h : entry ∈ (keepUnbonds a books w ev w').all) :
    entry ∈ books.all ∨ w'.store.unstakesOfIndex (a, entry.1) ≠ none := by
  unfold keepUnbonds at h
  split at h
  case h_2 => exact absurd h List.not_mem_nil
  case h_1 p p' hp hp' =>
    split at h
    · rename_i querier info msg id haction
      rcases UnbondBooks.mem_all_ofCall h with hold | ⟨⟨amount, rfl⟩, hindex⟩
      · exact .inl hold
      · right
        cases record_move hs hstep with
        | unstaked haction' hq htoken hlarge hpools hrecords =>
            obtain ⟨-, -, hmsg, -⟩ :=
              Action.execute.inj (haction.symm.trans haction')
            obtain ⟨-, rfl⟩ := ExecuteMsg.unstake.inj hmsg
            rw [hpools, Map.save_self] at hp'
            obtain rfl := Option.some.inj hp'
            rw [hindex, hrecords]
            simp [unstaked]
        | withdrawn haction' => cases haction.symm.trans haction'
        | answered haction' => cases haction.symm.trans haction'
        | dropped haction' => cases haction.symm.trans haction'
        | other hexecute => cases hexecute _ _ _ _ haction
    · rw [UnbondBooks.all_ofAnswer] at h
      exact .inl h
    · exact .inl h

/-- The worth of a record that is there is the amount of the record, and that
of a record that was paid is kept. -/
theorem made_of_step (hs : Sound net w) (hstep : w.step net ev = some w')
    (hmade : ∀ entry ∈ books.all, payments.made (a, entry.1) ≤ entry.2)
    (hdistinct : ((keepUnbonds a books w ev w').all.map Prod.fst).Nodup)
    (hstaged : ∀ index info,
      w'.store.unstakesOfIndex (a, index) = some info →
        (index, info.amount + 5) ∈ (keepUnbonds a books w ev w').all) :
    ∀ entry ∈ (keepUnbonds a books w ev w').all,
      (keepPayments payments w ev w').made (a, entry.1) ≤ entry.2 := by
  intro entry hentry
  cases hinfo : w'.store.unstakesOfIndex (a, entry.1) with
  | some info =>
      have hmem := hstaged entry.1 info hinfo
      have hsame : entry = (entry.1, info.amount + 5) :=
        List.inj_on_of_nodup_map hdistinct hentry hmem rfl
      have hamount : entry.2 = info.amount + 5 := congrArg Prod.snd hsame
      simp [keepPayments, hinfo, hamount]
  | none =>
      rcases mem_all_of_step hs hstep hentry with hold | hsome
      · simpa [keepPayments, hinfo] using hmade entry hold
      · exact absurd hinfo hsome

/-- The records of a new withdrawal were bonded. -/
theorem claimed_of_step (hs : Sound net w) (hstep : w.step net ev = some w')
    (hclaimed : ∀ id payout, w.payouts id = some payout → payout.pool = a →
      ∀ key ∈ payout.keys, key ∈ books.keys a)
    (hbonded : OnlyBonded a (w, books) ev) (id : PacketId) (payout : Payout)
    (hid : w'.payouts id = some payout) (hpool : payout.pool = a) :
    ∀ key ∈ payout.keys, key ∈ books.keys a := by
  cases traffic_of_step hs hstep with
  | quiet _ hpending =>
      rw [payouts_of_pending hpending] at hid
      exact hclaimed id payout hid hpool
  | answered _ hpending =>
      have hbefore := waiting_of_removed (payouts_of_remove hpending) hid
      exact hclaimed id payout hbefore.2 hpool
  | @sent querier info msg _ _ haction =>
      obtain ⟨store, rsp, sent, hexec⟩ := executed_of_step hs hstep haction
      obtain ⟨packet, hpacket, hpayout⟩ := Option.bind_eq_some_iff.mp hid
      rcases pending_of_sends hexec.sends hpacket with
        hold | ⟨sub, -, -, rfl⟩
      · exact hclaimed id payout
          (Option.bind_eq_some_iff.mpr ⟨packet, hold, hpayout⟩) hpool
      · obtain rfl : msg = .withdraw payout.pool payout.receiver
          payout.indexes := Packet.payout_origin hpayout
        have hwithdrawal : withdrawal a ev = some payout.indexes :=
          withdrawal_eq_some.mpr ⟨_, _, _, _, hpool ▸ haction⟩
        rintro ⟨pool, index⟩ hkey
        obtain ⟨rfl, hindex⟩ := mem_keys.mp hkey
        obtain ⟨info, -, batch, hbatch, hentry, -⟩ :=
          hbonded _ hwithdrawal index hindex
        rw [hpool]
        exact UnbondBooks.mem_keys_of_bonded hbatch hentry

/-- What the account pays is what a withdrawal of the pool asks for. -/
theorem paid_of_step (hp : w.store.pools a = some p) (hl : Loaded w a p)
    (htraced : Traced w) :
    (keepHost a host w ev w').paid = host.paid ∨
      ∃ id payout, w.answeredPayout ev = some (id, .success, payout) ∧
        payout.pool = a ∧
        (keepHost a host w ev w').paid = host.paid + payout.amount := by
  unfold keepHost
  split
  · rename_i id querier bankAccepts haction
    split
    · rename_i packet q hpacket hq
      obtain rfl := Option.some.inj (hp.symm.trans hq)
      cases hkind : packet.kind a with
      | none =>
          left
          simp only [HostAccount.settle, hkind]
          split <;> rfl
      | some txType =>
          by_cases htype : txType = .userWithdraw
          · subst htype
            obtain ⟨payload, hpayload, hpool, htype⟩ :=
              Packet.kind_eq_some.mp hkind
            obtain ⟨payout, hcarries⟩ :=
              htraced id packet payload hpacket hpayload htype
            have htaken := hl id packet _ hpacket hkind payout hcarries.asked
            refine .inr ⟨id, payout, ?_, hcarries.pool.symm.trans hpool, ?_⟩
            · rw [answeredPayout_of_answer haction hpacket, hcarries.asked]
              rfl
            · simp [HostAccount.settle, hkind, htaken]
          · left
            simp [HostAccount.settle, hkind]
    · exact .inl rfl
  · exact .inl rfl

/-- The account pays no more than the records are paid. -/
theorem payments_cover {keys more : List (String × Nat)} {paid paid' : Nat}
    (hpaid : paid ≤ (keys.map payments.paid).sum)
    (hcase : paid' = paid ∨
      ∃ id payout, w.answeredPayout ev = some (id, .success, payout) ∧
        (∀ key ∈ payout.keys, key ∈ keys) ∧
        payout.amount = (payout.keys.map payments.made).sum ∧
        paid' = paid + payout.amount) :
    paid' ≤ ((keys ++ more).map (keepPayments payments w ev w').paid).sum := by
  rw [List.map_append, List.sum_append]
  refine le_trans ?_ (Nat.le_add_right _ _)
  rcases hcase with rfl | ⟨id, payout, hanswer, hlisted, hamount, rfl⟩
  · refine hpaid.trans (List.sum_le_sum fun key _ => ?_)
    exact Nat.le_add_right _ _
  · have hcount := sum_le_sum_counted payments.made hlisted
    have hsplit : (keys.map (keepPayments payments w ev w').paid).sum =
        (keys.map payments.paid).sum +
          (keys.map fun key =>
            payout.keys.count key * payments.made key).sum := by
      rw [← List.sum_map_add]
      simp [keepPayments, hanswer]
    rw [hsplit, hamount]
    exact Nat.add_le_add hpaid hcount

/-! ### Runs -/

instance (a : String) (w : World) (ev : Event) :
    Decidable (NothingLeft a w ev) :=
  inferInstanceAs (Decidable (∀ _ ∈ _, ∀ _ ∈ _, ∀ _ ∈ _, _ → _ = _))

/-- The account has received what its steps have delegated, what was paid, and
the amounts of all records that are two eras old. -/
def Funded (a : String) (w : World) (host : HostAccount) : Prop :=
  ∀ p ∈ w.store.pools a, ∀ indexes : Finset Nat,
    (∀ index ∈ indexes, ∃ info ∈ w.store.unstakesOfIndex (a, index),
      info.era + 2 ≤ p.era) →
    host.staked + host.paid + ∑ index ∈ indexes, w.store.amountAt (a, index) ≤
      host.received

/-- What the account of pool `a` rests on. -/
structure InFunds (net : Network) (a : String) (w : World)
    (books : UnbondBooks) (payments : Payments) (host : HostAccount) :
    Prop where
  unbonding : AllUnbonding net a (w, books)
  payment : InPayment net (w, payments)
  absent : w.store.pools a = none →
    books = UnbondBooks.empty ∧ host = HostAccount.empty
  entered : Entered a w books payments host
  pool : ∀ p, w.store.pools a = some p → Loaded w a p ∧ Ledger p books host

/-- A record that is there was not paid, and one that is gone is owed
nothing. -/
theorem Booked.owed_le (h : Booked w payments) (key : String × Nat) :
    w.store.amountAt key + payments.paid key ≤ payments.made key := by
  cases hinfo : w.store.unstakesOfIndex key with
  | none => simpa [Storage.amountAt, hinfo] using h.paid key
  | some info =>
      simp [Storage.amountAt, hinfo, h.unpaid key info hinfo,
        h.made key info hinfo]

/-- The bonded entries cover what was paid and what is owed. -/
theorem owed_le_kept (hb : Booked w payments)
    (he : Entered a w books payments host)
    (hbonded : ∀ batch ∈ books.bonded, tokenSum batch.2 ≤ batch.1.unbond)
    {indexes : Finset Nat}
    (hlisted : ∀ index ∈ indexes, (a, index) ∈ books.keys a) :
    host.paid + ∑ index ∈ indexes, w.store.amountAt (a, index) ≤
      books.kept := by
  have howed : ∑ index ∈ indexes, w.store.amountAt (a, index) ≤
      ((books.keys a).map w.store.amountAt).sum := by
    have hmem : ∀ index ∈ indexes, index ∈ books.settled.map Prod.fst := by
      intro index hindex
      obtain ⟨entry, hentry, hkey⟩ := List.mem_map.mp (hlisted index hindex)
      exact List.mem_map.mpr ⟨entry, hentry, (Prod.mk.inj hkey).2⟩
    have hsum := sum_le_sum_of_covers
      (fun index => w.store.amountAt (a, index)) hmem
    simpa [UnbondBooks.keys, Function.comp_def] using hsum
  have hmade : ((books.keys a).map payments.made).sum ≤
      tokenSum books.settled := by
    rw [UnbondBooks.keys, List.map_map, tokenSum]
    exact List.sum_le_sum fun entry hentry =>
      he.made entry (UnbondBooks.mem_all_of_settled hentry)
  calc host.paid + ∑ index ∈ indexes, w.store.amountAt (a, index)
      ≤ ((books.keys a).map payments.paid).sum +
          ((books.keys a).map w.store.amountAt).sum :=
        Nat.add_le_add he.paid howed
    _ = ((books.keys a).map fun key =>
          payments.paid key + w.store.amountAt key).sum :=
        List.sum_map_add.symm
    _ ≤ ((books.keys a).map payments.made).sum :=
        List.sum_le_sum fun key _ => Nat.add_comm _ _ ▸ hb.owed_le key
    _ ≤ tokenSum books.settled := hmade
    _ ≤ books.kept := UnbondBooks.tokenSum_settled_le hbonded

theorem InFunds.funded (h : InFunds net a w books payments host) :
    Funded a w host := by
  intro p hp indexes hmature
  obtain ⟨-, hunbonding⟩ := h.unbonding.pool p hp
  have hledger : host.staked + books.kept + p.inHand ≤ host.received :=
    (h.pool p hp).2
  have hlisted : ∀ index ∈ indexes, (a, index) ∈ books.keys a := by
    intro index hindex
    obtain ⟨info, hinfo, hera⟩ := hmature index hindex
    obtain ⟨batch, hbatch, hentry⟩ :=
      (hunbonding.records index info hinfo).mature le_rfl hera
    exact UnbondBooks.mem_keys_of_bonded hbatch hentry
  have howed : host.paid + ∑ index ∈ indexes, w.store.amountAt (a, index) ≤
      books.kept :=
    owed_le_kept h.payment.booked h.entered hunbonding.bonded hlisted
  omega

theorem inPayment_step (hinv : InPayment net (w, payments))
    (hstep : w.step net ev = some w') (hplain : PlainReceiver w ev) :
    InPayment net (w', keepPayments payments w ev w') := by
  have hs : Sound net w := hinv.sound
  have hmove := fair_of_claim_move hinv.claimed
    (claim_move hs hinv.traced hstep) hplain
  obtain ⟨hclaimed, hbooked⟩ := records_kept hinv hstep hmove
  exact ⟨sound_step hs hstep, traced_step hs hstep hinv.traced,
    fun a => unstarted_step hs hstep (hinv.fresh a), hclaimed, hbooked⟩

theorem entered_step (h : InFunds net a w books payments host)
    (hstep : w.step net ev = some w')
    (hnext : AllUnbonding net a (w', keepUnbonds a books w ev w'))
    (hbonded : OnlyBonded a (w, books) ev) :
    Entered a w' (keepUnbonds a books w ev w')
      (keepPayments payments w ev w') (keepHost a host w ev w') := by
  have hs : Sound net w := h.unbonding.sound
  have he := h.entered
  obtain ⟨more, hmore⟩ := keys_grow hs hstep
    fun hp => (h.absent hp).1
  refine ⟨?_, ?_, ?_⟩
  · cases hp' : w'.store.pools a with
    | none =>
        rw [keepUnbonds_missing hp']
        exact nofun
    | some p' =>
        have hunbonding := (hnext.pool p' hp').2
        exact made_of_step hs hstep he.made hunbonding.distinct
          fun index info hinfo =>
            (hunbonding.records index info hinfo).mem_all
  · intro id payout hid hpool key hkey
    rw [hmore]
    exact List.mem_append_left _
      (claimed_of_step hs hstep he.claimed hbonded id payout hid hpool key
        hkey)
  · rw [hmore]
    refine payments_cover he.paid ?_
    cases hp : w.store.pools a with
    | none => exact .inl (by rw [keepHost_missing hp])
    | some p =>
        rcases paid_of_step hp (h.pool p hp).1 h.payment.traced with
          hsame | ⟨id, payout, hanswer, hpool, hpaid⟩
        · exact .inl hsame
        · have hid := waiting_of_answered hanswer
          exact .inr ⟨id, payout, hanswer, he.claimed id payout hid hpool,
            h.payment.booked.amount id payout hid, hpaid⟩

theorem inFunds_step (h : InFunds net a w books payments host)
    (hstep : w.step net ev = some w') (horderly : Orderly a w ev)
    (hlong : LongPeriod a w) (hplain : PlainReceiver w ev)
    (hleft : NothingLeft a w ev) (hapart : WithdrawApart a w) :
    InFunds net a w' (keepUnbonds a books w ev w')
      (keepPayments payments w ev w') (keepHost a host w ev w') := by
  have hs : Sound net w := h.unbonding.sound
  have htrack := Transition.track_eq_some.mpr
    ⟨hstep, (rfl : keepUnbonds a books w ev w' = _)⟩
  have hnext := allUnbonding_step h.unbonding htrack horderly
  have hbonded := onlyBonded_of_step h.unbonding htrack hlong
  refine ⟨hnext, inPayment_step h.payment hstep hplain, ?_,
    entered_step h hstep hnext hbonded, ?_⟩
  · intro hp'
    have hp : w.store.pools a = none := by
      cases hp : w.store.pools a with
      | none => rfl
      | some p =>
          obtain ⟨p', hsome⟩ := pool_persists hs hstep hp
          cases hp'.symm.trans hsome
    refine ⟨by simp [keepUnbonds, hp], ?_⟩
    rw [keepHost_missing hp]
    exact (h.absent hp).2
  · refine pool_invariant (I := fun p => Loaded w a p ∧ Ledger p books host)
      hs hstep h.pool ?_ ?_
    · intro p p' hp hp' hpool hmove
      have ho := (h.unbonding.pool p hp).1
      exact ⟨loaded_of_move hs hstep hp hp' ho hpool.1 horderly hapart hmove,
        ledger_of_move hp hp' ho hpool.2 hpool.1 hleft hmove⟩
    · intro icaId admin hp _ hnone _ _
      constructor
      · intro id packet txType hpacket hkind
        obtain ⟨payload, hpayload, hpool, htype⟩ :=
          Packet.kind_eq_some.mp hkind
        exact absurd ⟨packet, payload, hpacket, hpayload, hpool, htype⟩
          (hnone txType id)
      · rw [keepHost_missing hp, (h.absent hp).2]
        simp [keepUnbonds, hp, Ledger, UnbondBooks.kept, UnbondBooks.empty,
          HostAccount.empty, PoolInfo.inHand, registeredPool]

theorem inFunds_genesis (net : Network) (a : String) (block : BlockInfo)
    (info : MessageInfo) (lsdTokenCodeId : Nat) :
    InFunds net a (genesis block info lsdTokenCodeId) UnbondBooks.empty
      Payments.none HostAccount.empty := by
  refine ⟨⟨sound_genesis net block info lsdTokenCodeId, fun _ _ => rfl,
      fun _ hp => by cases hp⟩,
    inPayment_genesis net block info lsdTokenCodeId, fun _ => ⟨rfl, rfl⟩,
    ⟨nofun, ?_, Nat.zero_le _⟩, fun _ hp => by cases hp⟩
  intro id payout hid
  cases hid

/-- In an orderly run the account of a pool has received what its steps have
delegated, what was paid to unstakers, and what it owes for every record that
is two eras old. -/
theorem withdrawals_funded {net : Network} {a : String} {block : BlockInfo}
    {info : MessageInfo} {lsdTokenCodeId : Nat} {evs : List Event}
    (hrun : Transition.AllSteps (Transition.track (step net) (keepHost a))
      (fun s ev _ => Orderly a s.1 ev ∧ LongPeriod a s.1 ∧
        PlainReceiver s.1 ev ∧ NothingLeft a s.1 ev ∧ WithdrawApart a s.1)
      (genesis block info lsdTokenCodeId, HostAccount.empty) evs) :
    Transition.AllSteps (Transition.track (step net) (keepHost a))
      (fun _ _ s' => Funded a s'.1 s'.2)
      (genesis block info lsdTokenCodeId, HostAccount.empty) evs := by
  refine Transition.AllSteps.of_invariant
    (fun s => ∃ books payments, InFunds net a s.1 books payments s.2) ?_
    ⟨_, _, inFunds_genesis net a block info lsdTokenCodeId⟩ hrun
  rintro ⟨w, host⟩ ev ⟨w', host'⟩ ⟨books, payments, hinv⟩ hstep hcond
  obtain ⟨hworld, rfl⟩ := Transition.track_eq_some.mp hstep
  obtain ⟨horderly, hlong, hplain, hleft, hapart⟩ := hcond
  have hnext := inFunds_step hinv hworld horderly hlong hplain hleft hapart
  exact ⟨⟨_, _, hnext⟩, hnext.funded⟩

/-- A record is undelegated in the era after its unstake, and paid. -/
theorem withdrawals_funded_sample :
    let evs := Sample.twoEras ++ Sample.firstEra ++ Sample.unbonded ++
      [Sample.withdraw 6 "cosmos1user" [1] (Sample.packetId 7),
        Sample.ack 6 .success (Sample.packetId 7)]
    (Sample.run evs).isSome ∧
      Transition.AllSteps (Transition.track (step Sample.net)
          (keepHost Sample.pool))
        (fun _ _ s' => Funded Sample.pool s'.1 s'.2)
        (Sample.genesis, HostAccount.empty) evs :=
  ⟨by decide +kernel, withdrawals_funded (by decide +kernel)⟩

end World

end NeutronContracts
