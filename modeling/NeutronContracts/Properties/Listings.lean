/-
What a client gets that lists the accounts of a token, or the contracts that
may send tokens over the channels, page by page while the chain goes on.
-/
import NeutronContracts.LsdToken.Enumerable
import NeutronContracts.Lib.Paging
import NeutronContracts.Properties.TransferSolvency

namespace NeutronContracts

open Fallible Paging Transition

/-! ### The accounts of a token -/

namespace LsdToken

/-- No account loses its entry. -/
def Kept (token token' : Token) : Prop :=
  ∀ account, token.balances account ≠ none → token'.balances account ≠ none

section

variable {token middle token' : Token} {chain : Chain}
  {sender account owner spender recipient : String} {amount : Nat}
  {msg : ExecuteMsg} {received : Option Cw20ReceiveMsg}

theorem Kept.trans (h : Kept token middle) (h' : Kept middle token') :
    Kept token token' := fun account hsome => h' account (h account hsome)

theorem Kept.of_eq (h : token'.balances = token.balances) :
    Kept token token' := fun _ hsome => h ▸ hsome

theorem kept_save (account : String) (n : Nat)
    (h : token'.balances = token.balances.save account n) :
    Kept token token' := by
  intro other hother
  rw [h, Map.save_apply]
  split
  · exact Option.some_ne_none n
  · exact hother

theorem debit_kept (h : debit token account amount = .ok token') :
    Kept token token' := by
  simp only [debit, bind_eq_ok, pure_eq_ok] at h
  obtain ⟨n, -, rfl⟩ := h
  exact kept_save account n rfl

theorem credit_kept (h : credit token account amount = .ok token') :
    Kept token token' := by
  simp only [credit, bind_eq_ok, pure_eq_ok] at h
  obtain ⟨n, -, rfl⟩ := h
  exact kept_save account n rfl

theorem deductAllowance_kept
    (h : deductAllowance token chain owner spender amount = .ok token') :
    Kept token token' := by
  simp only [deductAllowance, bind_eq_ok, pure_eq_ok] at h
  obtain ⟨_, -, _, -, rfl⟩ := h
  exact .of_eq rfl

theorem reduceSupply_kept (h : reduceSupply token amount = .ok token') :
    Kept token token' := by
  simp only [reduceSupply, bind_eq_ok, pure_eq_ok] at h
  obtain ⟨_, -, rfl⟩ := h
  exact .of_eq rfl

theorem executeTransfer_kept
    (h : executeTransfer token chain sender recipient amount = .ok token') :
    Kept token token' := by
  simp only [executeTransfer, bind_eq_ok] at h
  obtain ⟨_, -, _, hdebit, hcredit⟩ := h
  exact (debit_kept hdebit).trans (credit_kept hcredit)

theorem executeTransferFrom_kept
    (h : executeTransferFrom token chain sender owner recipient amount =
      .ok token') : Kept token token' := by
  simp only [executeTransferFrom, bind_eq_ok] at h
  obtain ⟨_, -, _, -, _, hdeduct, _, hdebit, hcredit⟩ := h
  exact (deductAllowance_kept hdeduct).trans
    ((debit_kept hdebit).trans (credit_kept hcredit))

theorem execute_kept
    (h : execute token chain sender msg = .ok (token', received)) :
    Kept token token' := by
  cases msg with
  | transfer recipient amount =>
      exact executeTransfer_kept (quiet_eq_ok.mp h).1
  | burn amount =>
      have hburn := (quiet_eq_ok.mp h).1
      simp only [executeBurn, bind_eq_ok] at hburn
      obtain ⟨_, hdebit, hreduce⟩ := hburn
      exact (debit_kept hdebit).trans (reduceSupply_kept hreduce)
  | send contract amount text =>
      obtain ⟨_, hsend, -⟩ := notifying_eq_ok.mp h
      exact executeTransfer_kept (executeSend_ok hsend)
  | increaseAllowance spender amount expires =>
      have hincrease := (quiet_eq_ok.mp h).1
      simp only [executeIncreaseAllowance, bind_eq_ok,
        pure_eq_ok] at hincrease
      obtain ⟨_, -, _, -, _, -, _, -, rfl⟩ := hincrease
      exact .of_eq rfl
  | decreaseAllowance spender amount expires =>
      have hdecrease := (quiet_eq_ok.mp h).1
      simp only [executeDecreaseAllowance, bind_eq_ok] at hdecrease
      obtain ⟨_, -, _, -, _, -, hdecrease⟩ := hdecrease
      split at hdecrease
      · simp only [bind_eq_ok, pure_eq_ok] at hdecrease
        obtain ⟨_, -, rfl⟩ := hdecrease
        exact .of_eq rfl
      · cases hdecrease
        exact .of_eq rfl
  | transferFrom owner recipient amount =>
      exact executeTransferFrom_kept (quiet_eq_ok.mp h).1
  | sendFrom owner contract amount text =>
      obtain ⟨_, hsend, -⟩ := notifying_eq_ok.mp h
      exact executeTransferFrom_kept (executeSendFrom_ok hsend)
  | burnFrom owner amount =>
      have hburn := (quiet_eq_ok.mp h).1
      simp only [executeBurnFrom, bind_eq_ok] at hburn
      obtain ⟨_, -, _, hdeduct, _, hdebit, hreduce⟩ := hburn
      exact (deductAllowance_kept hdeduct).trans
        ((debit_kept hdebit).trans (reduceSupply_kept hreduce))
  | mint recipient amount =>
      have hmint := (quiet_eq_ok.mp h).1
      simp only [executeMint, bind_eq_ok] at hmint
      obtain ⟨_, -, _, -, _, -, _, -, _, -, hcredit⟩ := hmint
      have hkept := credit_kept hcredit
      exact hkept
  | addMinter newMinter =>
      have hadd := (quiet_eq_ok.mp h).1
      simp only [executeAddMinter, bind_eq_ok, pure_eq_ok] at hadd
      obtain ⟨_, -, _, -, rfl⟩ := hadd
      exact .of_eq rfl
  | removeMinter minter =>
      have hremove := (quiet_eq_ok.mp h).1
      simp only [executeRemoveMinter, bind_eq_ok, pure_eq_ok] at hremove
      obtain ⟨_, -, rfl⟩ := hremove
      exact .of_eq rfl
  | transferAdmin newAdmin =>
      have htransfer := (quiet_eq_ok.mp h).1
      simp only [executeTransferAdmin, bind_eq_ok, pure_eq_ok] at htransfer
      obtain ⟨_, -, _, -, rfl⟩ := htransfer
      exact .of_eq rfl

theorem run_kept {calls : List Call}
    (hrun : exec Token.step token calls = some token') : Kept token token' := by
  apply exec_invariant (fun later => Kept token later) ?_ (.of_eq rfl) hrun
  intro later call next hkept hstep
  obtain rfl := Option.some.inj hstep
  rcases later.deliver_cases call with heq | ⟨_, hcall⟩
  · rwa [heq]
  · exact hkept.trans (execute_kept hcall)

end

/-- How many accounts a page has at most. -/
def pageSize (limit : Option Nat) : Nat :=
  min (limit.getD defaultLimit) maxLimit

/-- A page of accounts. -/
def ReadAccounts (limit : Option Nat) (token : Token)
    (startAfter : Option String) (accounts : List String) : Prop :=
  ∃ range, accounts = queryAllAccounts token range startAfter limit

/-- What a client gets that lists the accounts page by page, while messages
are executed that make of the first token the last one. -/
def AccountsListed (limit : Option Nat) (token : Token)
    (accounts : List String) (token' : Token) : Prop :=
  Traversal (ReadAccounts limit) id (pageSize limit) (Leads Token.step) token
    none accounts token'

theorem accounts_paged (limit : Option Nat) :
    Paged Token.balances (pageSize limit) Prod.fst id (ReadAccounts limit) :=
  ⟨fun _ _ _ ⟨range, hrows⟩ => ⟨range, hrows⟩, fun _ => rfl⟩

/-- Every account that has an entry when a client begins to list them is
listed exactly once, and only accounts that have one when it ends. -/
theorem accounts_listed_once {token token' : Token} {limit : Option Nat}
    {accounts : List String}
    (hlisted : AccountsListed limit token accounts token') :
    (∃ calls, exec Token.step token calls = some token') ∧
      accounts.Nodup ∧
      (∀ account, token.balances account ≠ none → account ∈ accounts) ∧
      ∀ account ∈ accounts, token'.balances account ≠ none := by
  have hpaged := accounts_paged limit
  have hstay : ∀ account token token' v, True → Leads Token.step token token' →
      token.balances account = some v →
      ∃ v', token'.balances account = some v' ∧ True := by
    rintro account token token' v - ⟨calls, hrun⟩ hv
    have hkept := run_kept hrun account (by simp [hv])
    obtain ⟨v', hv'⟩ := Option.ne_none_iff_exists'.mp hkept
    exact ⟨v', hv', trivial⟩
  refine ⟨Leads.of_reflTransGen hlisted.reaches,
    (hlisted.sorted hpaged).imp ne_of_lt, fun account hsome => ?_,
    fun account hmem => ?_⟩
  · obtain ⟨balance, hbalance⟩ := Option.ne_none_iff_exists'.mp hsome
    obtain ⟨_, hmem, -⟩ := hlisted.complete hpaged (fun _ => True)
      (fun _ _ _ _ => trivial) (fun _ _ => True) (fun _ => trivial)
      (fun _ _ _ _ _ => trivial) (hstay account) trivial hbalance
      (fun _ h => nomatch h)
    exact hmem
  · obtain ⟨middle, balance, -, hreach, hbalance, -⟩ :=
      hlisted.held hpaged account hmem
    obtain ⟨calls, hrun⟩ := Leads.of_reflTransGen hreach
    have hsome : middle.balances account = some balance := hbalance
    exact run_kept hrun account (by simp [hsome])

namespace Sample

/-- Ann has all the tokens there are. -/
def minted : Token where
  info := ⟨"Liquid", "LSD", 6, 70, none⟩
  balances := Map.empty.save "ann" 70
  allowances := Map.empty
  allowancesSpender := Map.empty

def annPays : Call := ⟨chain, "ann", .transfer "ben" 20⟩

theorem ann_lt_ben : "ann" < "ben" :=
  String.lt_iff_toList_lt.mpr (by decide)

/-- The walk over the accounts before the payment. -/
def before : minted.balances.Range where
  list := [("ann", 70)]
  complete key value := by
    simp [minted, Map.save_apply, Map.empty, eq_comm]
  sorted := List.pairwise_singleton _ _

/-- The walk over the accounts after it. -/
def after {token : Token} (h : token.balances =
    (minted.balances.save "ann" 50).save "ben" 20) :
    token.balances.Range where
  list := [("ann", 50), ("ben", 20)]
  complete key value := by
    by_cases hben : key = "ben"
    · simp [h, hben, eq_comm]
    · by_cases hann : key = "ann"
      · simp [h, hann, eq_comm]
      · simp [h, minted, hben, hann, Map.empty]
  sorted := List.pairwise_pair.mpr ann_lt_ben

end Sample

/-- A payment between two pages of one account each. -/
theorem accounts_listed_once_sample :
    ∃ token', exec Token.step Sample.minted [Sample.annPays] = some token' ∧
      AccountsListed (some 1) Sample.minted ["ann", "ben"] token' ∧
      token'.balances "ben" ≠ none := by
  obtain ⟨token', hrun, hbalances⟩ : ∃ token',
      exec Token.step Sample.minted [Sample.annPays] = some token' ∧
        token'.balances =
          (Sample.minted.balances.save "ann" 50).save "ben" 20 :=
    ⟨_, rfl, rfl⟩
  have hfirst : ReadAccounts (some 1) Sample.minted none ["ann"] :=
    ⟨Sample.before, rfl⟩
  have hsecond : ReadAccounts (some 1) token' (some "ann") ["ben"] :=
    ⟨Sample.after hbalances, by
      simp only [queryAllAccounts, Map.Range.page, Sample.after,
        Option.all_some, List.filter_cons, List.filter_nil, lt_irrefl,
        Sample.ann_lt_ben, decide_true, decide_false, if_true]
      rfl⟩
  have hend : ReadAccounts (some 1) token' (some "ben") [] :=
    ⟨Sample.after hbalances, by
      simp only [queryAllAccounts, Map.Range.page, Sample.after,
        Option.all_some, List.filter_cons, List.filter_nil, lt_irrefl,
        not_lt_of_gt Sample.ann_lt_ben, decide_false]
      rfl⟩
  have hlisted : AccountsListed (some 1) Sample.minted
      (["ann"] ++ (["ben"] ++ [])) token' :=
    .more hfirst (rfl : ["ann"].getLast? = some "ann") ⟨_, hrun⟩
      (.more hsecond (rfl : ["ben"].getLast? = some "ben") (.refl _)
        (.last hend Nat.one_pos))
  exact ⟨token', hrun, hlisted,
    (accounts_listed_once hlisted).2.2.2 "ben" (by simp)⟩

end LsdToken

/-! ### The contracts that may send tokens -/

namespace Cw20Ics20

variable {V : Type} [LinearOrder V]

/-- A page of the allow list. -/
def ReadAllowed (net : Setting V) (limit : Option Nat) (h : HomeChain)
    (startAfter : Option String) (allowed : List AllowedInfo) : Prop :=
  ∃ range, listAllowed net.api h.store range startAfter limit = .ok allowed

/-- What a client gets that lists the allow list page by page, while the chain
goes on. -/
def AllowedListed (net : Setting V) (limit : Option Nat) (h : HomeChain)
    (allowed : List AllowedInfo) : Prop :=
  ∃ last, Traversal (ReadAllowed net limit) AllowedInfo.contract
    (min (limit.getD defaultLimit) maxLimit) (Leads (HomeChain.step net)) h
    none allowed last

theorem maybeAddr_ok {api : Api} {human addr : Option String}
    (h : maybeAddr api human = .ok addr) : addr = human := by
  unfold maybeAddr at h
  cases human with
  | none => exact (pure_eq_ok.mp h).symm
  | some text =>
      cases hvalid : api.addrValidate text with
      | error err =>
          dsimp only at h
          rw [hvalid] at h
          cases h
      | ok valid =>
          dsimp only at h
          rw [hvalid] at h
          obtain ⟨-, rfl⟩ := Api.addrValidate_eq_ok.mp hvalid
          exact (Except.ok.inj h).symm

theorem allowed_paged (net : Setting V) (limit : Option Nat) :
    Paged (fun h : HomeChain => h.store.allowList)
      (min (limit.getD defaultLimit) maxLimit)
      (fun entry => ⟨entry.1, entry.2.gasLimit⟩) AllowedInfo.contract
      (ReadAllowed net limit) := by
  refine ⟨fun h startAfter rows ⟨range, hrows⟩ => ⟨range, ?_⟩, fun _ => rfl⟩
  simp only [listAllowed, bind_eq_ok, pure_eq_ok] at hrows
  obtain ⟨start, hstart, rfl⟩ := hrows
  rw [maybeAddr_ok hstart]

/-- Every contract that is on the allow list when a client begins to list it is
listed exactly once, with no lower gas limit than it had. -/
theorem allowed_listed_once {net : Setting V} {start h : HomeChain}
    {events : List Event} {limit : Option Nat} {allowed : List AllowedInfo}
    (hgenesis : HomeChain.Genesis net start)
    (hrun : exec (HomeChain.step net) start events = some h)
    (hlisted : AllowedListed net limit h allowed) :
    (allowed.map AllowedInfo.contract).Nodup ∧
      ∀ contract info, h.store.allowList contract = some info →
        ∃ gasLimit, (⟨contract, gasLimit⟩ : AllowedInfo) ∈ allowed ∧
          GasLe info.gasLimit gasLimit := by
  obtain ⟨last, hlisted⟩ := hlisted
  have hpaged := allowed_paged net limit
  have hkeep : ∀ h h', HomeChain.Sound net h →
      Leads (HomeChain.step net) h h' → HomeChain.Sound net h' := by
    rintro h h' hs ⟨later, hlater⟩
    exact exec_invariant (HomeChain.Sound net)
      (fun _ _ _ hs hstep => hs.step hstep) hs hlater
  refine ⟨?_, fun contract info hinfo => ?_⟩
  · rw [List.Nodup, List.pairwise_map]
    exact (hlisted.sorted hpaged).imp ne_of_lt
  · obtain ⟨info', hmem, hle⟩ := hlisted.complete hpaged
      (HomeChain.Sound net) hkeep
      (fun old new => GasLe old.gasLimit new.gasLimit)
      (fun _ => GasLe.refl _) (fun _ _ _ => GasLe.trans)
      (fun h h' old hs ⟨later, hlater⟩ hold =>
        (HomeChain.admits_run hs hlater).listed contract old hold)
      (HomeChain.sound_run hgenesis hrun) hinfo (fun _ h => nomatch h)
    exact ⟨info'.gasLimit, hmem, hle⟩

namespace Sample

/-- The administrator sets a gas limit. -/
def admits (gasLimit : Nat) : Event :=
  at11 (.call ⟨"gov", []⟩ (.allow ⟨"lsd", some gasLimit⟩) ("channel-0", 1))

/-- The walk over an allow list with one contract. -/
def oneAllowed {store : Storage} {info : AllowInfo}
    (h : store.allowList = Map.empty.save "lsd" info) :
    store.allowList.Range where
  list := [("lsd", info)]
  complete key value := by
    simp [h, Map.save_apply, Map.empty, eq_comm]
  sorted := List.pairwise_singleton _ _

end Sample

/-- The gas limit goes up between two pages. -/
theorem allowed_listed_once_sample :
    ∃ h later, exec (HomeChain.step Sample.net) Sample.home
        [Sample.admits 200000] = some h ∧
      exec (HomeChain.step Sample.net) h [Sample.admits 300000] =
        some later ∧
      AllowedListed Sample.net (some 1) h [⟨"lsd", some 200000⟩] ∧
      ∃ gasLimit, (⟨"lsd", gasLimit⟩ : AllowedInfo) ∈
        [⟨"lsd", some 200000⟩] ∧ GasLe (some 200000) gasLimit := by
  obtain ⟨h, later, hrun, hlater, hallowed, hraised⟩ : ∃ h later,
      exec (HomeChain.step Sample.net) Sample.home
          [Sample.admits 200000] = some h ∧
        exec (HomeChain.step Sample.net) h [Sample.admits 300000] =
          some later ∧
        h.store.allowList = Map.empty.save "lsd" ⟨some 200000⟩ ∧
        later.store.allowList = h.store.allowList.save "lsd" ⟨some 300000⟩ :=
    ⟨_, _, rfl, rfl, rfl, rfl⟩
  rw [hallowed, Map.save, Map.save, Function.update_idem] at hraised
  have hfirst : ReadAllowed Sample.net (some 1) h none
      [⟨"lsd", some 200000⟩] := ⟨Sample.oneAllowed hallowed, rfl⟩
  have hend : ReadAllowed Sample.net (some 1) later (some "lsd") [] := by
    refine ⟨Sample.oneAllowed hraised, ?_⟩
    simp only [listAllowed, Map.Range.page, Sample.oneAllowed,
      List.filter_cons, List.filter_nil]
    rfl
  have hlisted : AllowedListed Sample.net (some 1) h
      ([⟨"lsd", some 200000⟩] ++ []) :=
    ⟨later, .more hfirst rfl ⟨_, hlater⟩ (.last hend Nat.one_pos)⟩
  exact ⟨h, later, hrun, hlater, hlisted,
    (allowed_listed_once Sample.genesis_home hrun hlisted).2 "lsd" _
      (by simp [hallowed])⟩

/-! ### What the contract answers -/

section

variable {net : Setting V} {start h last : HomeChain}
  {events later : List Event}

/-- What a page says of a contract, the contract says when it is asked. -/
theorem queryAllowed_of_listed {store : Storage}
    {range : store.allowList.Range} {startAfter : Option String}
    {limit : Option Nat} {allowed : List AllowedInfo} {row : AllowedInfo}
    {answer : AllowedResponse}
    (hlisted : listAllowed net.api store range startAfter limit = .ok allowed)
    (hrow : row ∈ allowed)
    (hanswer : queryAllowed net.api store row.contract = .ok answer) :
    answer = ⟨true, row.gasLimit⟩ := by
  simp only [listAllowed, bind_eq_ok, pure_eq_ok] at hlisted
  obtain ⟨_, -, rfl⟩ := hlisted
  obtain ⟨⟨contract, info⟩, hentry, rfl⟩ := List.mem_map.mp hrow
  have hinfo := Map.Range.mem_of_page hentry
  simp only [queryAllowed, bind_eq_ok, Api.addrValidate_eq_ok,
    pure_eq_ok] at hanswer
  obtain ⟨_, ⟨-, rfl⟩, rfl⟩ := hanswer
  rw [hinfo]

/-- The tokens of a contract that is once said to be allowed can be paid out
from then on, with no less gas. -/
theorem allowed_from_then_on {contract : String} {gas : Option Nat}
    (hgenesis : HomeChain.Genesis net start)
    (hrun : exec (HomeChain.step net) start events = some h)
    (hlater : exec (HomeChain.step net) h later = some last)
    (hallowed : queryAllowed net.api h.store contract = .ok ⟨true, gas⟩) :
    ∃ gas', GasLe gas gas' ∧
      queryAllowed net.api last.store contract = .ok ⟨true, gas'⟩ ∧
      ∀ n, checkGasLimit net.api last.store (.cw20 ⟨contract, n⟩) =
        .ok gas' := by
  have hs := HomeChain.sound_run hgenesis hrun
  obtain ⟨gas', hallowed', hle⟩ :=
    (HomeChain.admits_run hs hlater).queryAllowed hallowed
  exact ⟨gas', hle, hallowed', checkGasLimit_of_allowed hallowed'⟩

/-- A channel that can be asked for is listed, and what it is said to have
outstanding can be paid out, each amount from what the contract holds. -/
theorem channel_answered {id : String}
    {range : (h.store.channelState.under id).Range}
    {channels : h.store.channelInfo.Range} {answer : ChannelResponse}
    (hgenesis : HomeChain.Genesis net start)
    (hrun : exec (HomeChain.step net) start events = some h)
    (hanswer : queryChannel h.store id range = .ok answer) :
    answer.info ∈ queryList h.store channels ∧
      ∀ amount ∈ answer.balances,
        (∃ gas, checkGasLimit net.api h.store amount = .ok gas) ∧
          (net.Backed amount.denom →
            amount.amount ≤ h.holding net amount.denom) := by
  have hinv : HomeChain.Sound net h ∧ HomeChain.Solvent net h :=
    HomeChain.solvent_run hgenesis hrun
  simp only [queryChannel, bind_eq_ok, orError_eq_ok, pure_eq_ok] at hanswer
  obtain ⟨info, hinfo, rfl⟩ := hanswer
  refine ⟨List.mem_map.mpr ⟨(id, info), (channels.complete id info).mpr hinfo,
    rfl⟩, fun amount hamount => ?_⟩
  obtain ⟨⟨denom, state⟩, hentry, rfl⟩ := List.mem_map.mp hamount
  have hstate : h.store.channelState (id, denom) = some state :=
    (range.complete denom state).mp hentry
  refine ⟨?_, fun hbacked => ?_⟩
  · obtain ⟨gas, hgas⟩ := hinv.1.payable (id, denom) (by simp [hstate])
    exact ⟨gas, HomeChain.checkGasLimit_fromParts hgas⟩
  · rw [denom_fromParts] at hbacked
    have hcovered := hinv.2 denom hbacked {id} fun _ _ => trivial
    have hout : h.store.outstanding (id, denom) = state.outstanding := by
      simp [Storage.outstanding, hstate]
    rw [Finset.sum_singleton, HomeChain.owed, hout] at hcovered
    simpa using hcovered

end

end Cw20Ics20

end NeutronContracts
