/-
The supply of the liquid staking token: it is the sum of all balances, stays
below the cap, and grows by the minters' messages only.
-/
import NeutronContracts.LsdToken.Ledger

namespace NeutronContracts.LsdToken

open Fallible Holdings

/-- The books of a token agree. -/
structure Conserved (token : Token) : Prop where
  bounded : Bounded token.balance
  total : total token.balance = token.info.totalSupply
  capped : ∀ cap ∈ token.info.getCap, token.info.totalSupply ≤ cap

section

variable {token token' : Token} {chain : Chain} {sender : String}
  {msg : ExecuteMsg} {received : Option Cw20ReceiveMsg}

/-! ### The first balances -/

/-- The accounts of a list without repetitions are created with the amounts
that the list adds to the total. -/
theorem createAccounts_total {accounts : List (String × Nat)}
    {balances balances' : Map String Nat} {supply supply' : Nat}
    (h : createAccounts chain balances supply accounts =
      .ok (balances', supply'))
    (hnodup : (accounts.map Prod.fst).Nodup)
    (hfresh : ∀ address ∈ accounts.map Prod.fst, balances address = none)
    (hbounded : Bounded fun account => (balances account).getD 0) :
    Bounded (fun account => (balances' account).getD 0) ∧
      total (fun account => (balances' account).getD 0) + supply =
        total (fun account => (balances account).getD 0) + supply' := by
  induction accounts generalizing balances supply with
  | nil =>
      simp only [createAccounts, pure_eq_ok, Prod.mk.injEq] at h
      obtain ⟨rfl, rfl⟩ := h
      exact ⟨hbounded, rfl⟩
  | cons row rest ih =>
      obtain ⟨address, amount⟩ := row
      simp only [createAccounts, bind_eq_ok, Chain.validate_eq_ok,
        addBelow_eq_ok] at h
      obtain ⟨validated, ⟨-, hvalidated⟩, _, ⟨-, rfl⟩, h⟩ := h
      subst validated
      rw [List.map_cons, List.nodup_cons] at hnodup
      have hsaved : (fun account => ((balances.save address amount)
          account).getD 0) = Function.update
            (fun account => (balances account).getD 0) address amount := by
        funext account
        by_cases heq : account = address
        · subst heq
          simp
        · simp [Map.save_of_ne heq, Function.update_of_ne heq]
      have hrest : ∀ other ∈ rest.map Prod.fst,
          (balances.save address amount) other = none := by
        intro other hother
        have hne : other ≠ address := fun heq => hnodup.1 (heq ▸ hother)
        rw [Map.save_of_ne hne]
        exact hfresh other (List.mem_cons_of_mem _ hother)
      obtain ⟨hbounded', htotal⟩ :=
        ih h hnodup.2 hrest (hsaved ▸ hbounded.update)
      have hupdate := @total_update _ _ _ address amount hbounded
      have hzero : balances address = none :=
        hfresh address List.mem_cons_self
      rw [hsaved] at htotal
      simp only [hzero, Option.getD_none] at hupdate
      exact ⟨hbounded', by omega⟩

theorem minterData_cap {mint : Option InstantiateMinterData}
    {data : Option MinterData} (h : minterData chain mint = .ok data) :
    data.bind (·.cap) = mint.bind (·.cap) := by
  cases mint with
  | none =>
      simp only [minterData, pure_eq_ok] at h
      exact h ▸ rfl
  | some m =>
      simp only [minterData, bind_eq_ok, pure_eq_ok] at h
      obtain ⟨_, -, _, -, rfl⟩ := h
      rfl

theorem conserved_instantiate {msg : InstantiateMsg}
    (h : instantiate chain msg = .ok token) : Conserved token := by
  simp only [instantiate, bind_eq_ok, rejectIf_eq_ok, pure_eq_ok, Prod.exists,
    not_not, not_exists, not_and, not_lt] at h
  obtain ⟨_, -, _, hnodup, balances, supply, haccounts, _, hcap, mint, hmint,
    rfl⟩ := h
  obtain ⟨hbounded, htotal⟩ := createAccounts_total haccounts hnodup
    (fun _ _ => rfl) bounded_empty
  have hzero : total (fun account => ((Map.empty : Map String Nat)
      account).getD 0) = 0 := total_empty
  rw [hzero, Nat.add_zero, Nat.zero_add] at htotal
  refine ⟨hbounded, htotal, ?_⟩
  intro cap hmem
  rw [TokenInfo.getCap, minterData_cap hmint] at hmem
  exact hcap cap hmem

/-! ### One message -/

theorem total_of_posted {book book' : Book String}
    {move : Option (Move String)} (hbounded : Bounded book)
    (h : Posted book move book') :
    Bounded book' ∧
      total book' + (move.map Move.outflow).getD 0 =
        total book + (move.map Move.inflow).getD 0 := by
  cases move with
  | none =>
      have heq : book' = book := h
      subst heq
      exact ⟨hbounded, rfl⟩
  | some move =>
      obtain ⟨hcovered, rfl⟩ := h
      exact ⟨hbounded.apply, total_apply hbounded hcovered⟩

/-- A message creates and destroys in the supply what it brings into the
balances and takes out of them. -/
theorem minted_eq_inflow :
    msg.minted = ((msg.move sender).map Move.inflow).getD 0 := by
  cases msg <;> rfl

theorem burned_eq_outflow :
    msg.burned = ((msg.move sender).map Move.outflow).getD 0 := by
  cases msg <;> rfl

/-- No message changes the cap. -/
theorem execute_cap
    (h : execute token chain sender msg = .ok (token', received)) :
    token'.info.getCap = token.info.getCap := by
  cases msg with
  | transfer recipient amount =>
      rw [executeTransfer_info (quiet_eq_ok.mp h).1]
  | burn amount =>
      have hburn := (quiet_eq_ok.mp h).1
      simp only [executeBurn, reduceSupply, bind_eq_ok, pure_eq_ok] at hburn
      obtain ⟨_, hdebit, _, -, rfl⟩ := hburn
      simp only [TokenInfo.getCap, debit_info hdebit]
  | send contract amount text =>
      obtain ⟨_, hsend, -⟩ := notifying_eq_ok.mp h
      rw [executeTransfer_info (executeSend_ok hsend)]
  | increaseAllowance spender amount expires =>
      have hincrease := (quiet_eq_ok.mp h).1
      simp only [executeIncreaseAllowance, bind_eq_ok,
        pure_eq_ok] at hincrease
      obtain ⟨_, -, _, -, _, -, _, -, rfl⟩ := hincrease
      rfl
  | decreaseAllowance spender amount expires =>
      have hdecrease := (quiet_eq_ok.mp h).1
      simp only [executeDecreaseAllowance, bind_eq_ok] at hdecrease
      obtain ⟨_, -, _, -, _, -, hdecrease⟩ := hdecrease
      split at hdecrease
      · simp only [bind_eq_ok, pure_eq_ok] at hdecrease
        obtain ⟨_, -, rfl⟩ := hdecrease
        rfl
      · cases hdecrease
        rfl
  | transferFrom owner recipient amount =>
      rw [executeTransferFrom_info (quiet_eq_ok.mp h).1]
  | sendFrom owner contract amount text =>
      obtain ⟨_, hsend, -⟩ := notifying_eq_ok.mp h
      rw [executeTransferFrom_info (executeSendFrom_ok hsend)]
  | burnFrom owner amount =>
      have hburn := (quiet_eq_ok.mp h).1
      simp only [executeBurnFrom, reduceSupply, bind_eq_ok,
        pure_eq_ok] at hburn
      obtain ⟨_, -, _, hdeduct, _, hdebit, _, -, rfl⟩ := hburn
      simp only [TokenInfo.getCap, debit_info hdebit,
        deductAllowance_info hdeduct]
  | mint recipient amount =>
      have hmint := (quiet_eq_ok.mp h).1
      simp only [executeMint, bind_eq_ok] at hmint
      obtain ⟨_, -, _, -, _, -, _, -, _, -, hcredit⟩ := hmint
      simp only [TokenInfo.getCap, credit_info hcredit]
  | addMinter newMinter =>
      have hadd := (quiet_eq_ok.mp h).1
      simp only [executeAddMinter, adminMint, bind_eq_ok, orError_eq_ok,
        pure_eq_ok] at hadd
      obtain ⟨_, ⟨_, hmint, _, -, rfl⟩, _, -, rfl⟩ := hadd
      simp [TokenInfo.getCap, setMint, hmint]
  | removeMinter minter =>
      have hremove := (quiet_eq_ok.mp h).1
      simp only [executeRemoveMinter, adminMint, bind_eq_ok, orError_eq_ok,
        pure_eq_ok] at hremove
      obtain ⟨_, ⟨_, hmint, _, -, rfl⟩, rfl⟩ := hremove
      simp [TokenInfo.getCap, setMint, hmint]
  | transferAdmin newAdmin =>
      have htransfer := (quiet_eq_ok.mp h).1
      simp only [executeTransferAdmin, adminMint, bind_eq_ok, orError_eq_ok,
        pure_eq_ok] at htransfer
      obtain ⟨_, ⟨_, hmint, _, -, rfl⟩, _, -, rfl⟩ := htransfer
      simp [TokenInfo.getCap, setMint, hmint]

/-- A message that creates tokens stays below the cap. -/
theorem execute_capped
    (h : execute token chain sender msg = .ok (token', received))
    (hcapped : ∀ cap ∈ token.info.getCap, token.info.totalSupply ≤ cap) :
    ∀ cap ∈ token'.info.getCap, token'.info.totalSupply ≤ cap := by
  intro cap hcap
  rw [execute_cap h] at hcap
  have hsupply := execute_supply h
  by_cases hminted : msg.minted = 0
  · have := hcapped cap hcap
    omega
  · cases msg with
    | mint recipient amount =>
        have hmint := (quiet_eq_ok.mp h).1
        simp only [executeMint, bind_eq_ok, orError_eq_ok, rejectIf_eq_ok,
          addBelow_eq_ok, not_exists, not_and, not_lt] at hmint
        obtain ⟨mint, hmem, _, -, _, ⟨-, rfl⟩, _, hlimit, _, -, hcredit⟩ :=
          hmint
        rw [TokenInfo.getCap, hmem] at hcap
        rw [credit_info hcredit]
        exact hlimit cap hcap
    | _ => exact absurd rfl hminted

theorem Conserved.execute (hinv : Conserved token)
    (h : execute token chain sender msg = .ok (token', received)) :
    Conserved token' := by
  obtain ⟨hbounded, htotal⟩ :=
    total_of_posted hinv.bounded (execute_posted h)
  refine ⟨hbounded, ?_, execute_capped h hinv.capped⟩
  have hsupply := execute_supply h
  have hbefore := hinv.total
  rw [@minted_eq_inflow sender, @burned_eq_outflow sender] at hsupply
  omega

end

theorem conserved_step {token token' : Token} {call : Call}
    (hinv : Conserved token) (h : token.step call = some token') :
    Conserved token' := by
  cases h
  rcases token.deliver_cases call with heq | ⟨_, hcall⟩
  · rwa [heq]
  · exact hinv.execute hcall

/-- In every state that any messages lead to, the supply is the sum of all
balances and at most the cap, and the next message raises it only when it is
a mint of one of the current minters. -/
theorem supply_conserved {chain : Chain} {msg : InstantiateMsg}
    {token₀ token : Token} {calls : List Call}
    (hstart : instantiate chain msg = .ok token₀)
    (hrun : Transition.exec Token.step token₀ calls = some token) :
    (Function.support token.balance).Finite ∧
      ∑ᶠ account, token.balance account = token.info.totalSupply ∧
      (∀ cap ∈ token.info.getCap, token.info.totalSupply ≤ cap) ∧
      ∀ call : Call,
        token.info.totalSupply < (token.deliver call).info.totalSupply →
        (∃ recipient amount, call.msg = .mint recipient amount ∧
          (token.deliver call).info.totalSupply =
            token.info.totalSupply + amount) ∧
        ∃ mint, token.info.mint = some mint ∧ call.sender ∈ mint.minters := by
  have hinv : Conserved token := Transition.exec_invariant Conserved
    (fun _ _ _ => conserved_step) (conserved_instantiate hstart) hrun
  refine ⟨hinv.bounded, hinv.total, hinv.capped, ?_⟩
  intro call hgrows
  rcases token.deliver_cases call with heq | ⟨_, hcall⟩
  · rw [heq] at hgrows
    exact absurd hgrows (lt_irrefl _)
  · have hsupply := execute_supply hcall
    have hminted : call.msg.minted ≠ 0 := by omega
    refine ⟨?_, execute_minter hcall hminted⟩
    cases hmsg : call.msg with
    | mint recipient amount =>
        rw [hmsg] at hcall
        exact ⟨recipient, amount, rfl,
          (executeMint_supply (quiet_eq_ok.mp hcall).1).2⟩
    | _ => exact absurd (by rw [hmsg]; rfl) hminted

theorem supply_conserved_sample :
    ∃ token₀ token, instantiate Sample.chain Sample.setup = .ok token₀ ∧
      Transition.exec Token.step token₀ Sample.payments = some token ∧
      token.info.totalSupply = 125 ∧
      ∑ᶠ account, token.balance account = 125 := by
  have hrun : ((instantiate Sample.chain Sample.setup).toOption.bind
      fun token => Transition.exec Token.step token Sample.payments).map
        (·.info.totalSupply) = some 125 := by decide +kernel
  obtain ⟨token, hrun, hsupply⟩ := Option.map_eq_some_iff.mp hrun
  obtain ⟨token₀, hstart, hrun⟩ := Option.bind_eq_some_iff.mp hrun
  have hstart := toOption_eq_some.mp hstart
  refine ⟨token₀, token, hstart, hrun, hsupply, ?_⟩
  exact (supply_conserved hstart hrun).2.1.trans hsupply

end NeutronContracts.LsdToken
