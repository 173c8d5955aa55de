/-
What every message of the liquid staking token does to the balances and to the
allowances, as moves of amounts between accounts.
-/
import NeutronContracts.LsdToken.Token
import NeutronContracts.Lib.Holdings
import NeutronContracts.Lib.Transition

namespace NeutronContracts.LsdToken

open Fallible Holdings

/-- A message to a token, with its sender and the chain at that moment. -/
structure Call where
  chain : Chain
  sender : String
  msg : ExecuteMsg

/-- A message that fails is reverted. -/
def Token.deliver (token : Token) (call : Call) : Token :=
  match execute token call.chain call.sender call.msg with
  | .ok (next, _) => next
  | .error _ => token

def Token.step (token : Token) (call : Call) : Option Token :=
  some (token.deliver call)

theorem Token.deliver_cases (token : Token) (call : Call) :
    token.deliver call = token ∨
      ∃ received, execute token call.chain call.sender call.msg =
        .ok (token.deliver call, received) := by
  unfold Token.deliver
  cases hcall : execute token call.chain call.sender call.msg with
  | error e => exact .inl rfl
  | ok result => exact .inr ⟨result.2, rfl⟩

/-- What a message moves between accounts. -/
def ExecuteMsg.move (sender : String) : ExecuteMsg → Option (Move String)
  | .transfer recipient amount => some (.transfer sender recipient amount)
  | .send contract amount _ => some (.transfer sender contract amount)
  | .burn amount => some (.withdraw sender amount)
  | .mint recipient amount => some (.deposit recipient amount)
  | .transferFrom owner recipient amount =>
      some (.transfer owner recipient amount)
  | .sendFrom owner contract amount _ => some (.transfer owner contract amount)
  | .burnFrom owner amount => some (.withdraw owner amount)
  | _ => none

/-- What a transfer, burn or send takes from its sender. -/
def ExecuteMsg.spend : ExecuteMsg → Option Nat
  | .transfer _ amount => some amount
  | .send _ amount _ => some amount
  | .burn amount => some amount
  | _ => none

/-- The account that a message takes from under an allowance, and how much. -/
def ExecuteMsg.draw : ExecuteMsg → Option (String × Nat)
  | .transferFrom owner _ amount => some (owner, amount)
  | .sendFrom owner _ amount _ => some (owner, amount)
  | .burnFrom owner amount => some (owner, amount)
  | _ => none

/-- A book before and after a covered move, or without any. -/
def Posted (book : Book String) (move : Option (Move String))
    (book' : Book String) : Prop :=
  match move with
  | some move => move.Covered book ∧ book' = move.apply book
  | none => book' = book

/-- What the spenders may still take, under `(owner, spender)`. -/
def Token.allowed (token : Token) : Book (String × String) :=
  fun pair => ((token.allowances pair).map (·.allowance)).getD 0

/-- What a message adds to the allowances. -/
def ExecuteMsg.granted (sender : String) : ExecuteMsg → Book (String × String)
  | .increaseAllowance spender amount _ => add empty (sender, spender) amount
  | _ => empty

/-- What a message takes under the allowances. -/
def ExecuteMsg.drawn (sender : String) (msg : ExecuteMsg) :
    Book (String × String) :=
  match msg.draw with
  | some (owner, amount) => add empty (owner, sender) amount
  | none => empty

/-- Both indexes of the allowances are the same. -/
def SameGrants (token token' : Token) : Prop :=
  token'.allowances = token.allowances ∧
    token'.allowancesSpender = token.allowancesSpender

theorem SameGrants.trans {token middle token' : Token}
    (h : SameGrants token middle) (h' : SameGrants middle token') :
    SameGrants token token' :=
  ⟨h'.1.trans h.1, h'.2.trans h.2⟩

section

variable {token token' : Token} {chain : Chain}
  {sender account owner spender recipient addr : String} {amount : Nat}
  {msg : ExecuteMsg} {received : Option Cw20ReceiveMsg}
  {expires : Option Expiration} {pair : String × String}

@[simp] theorem Chain.validate_eq_ok :
    chain.validate account = .ok addr ↔
      chain.addrValidate account = true ∧ addr = account := by
  unfold Chain.validate
  split
  · next h => simp [h, eq_comm]
  · next h => simp [h]

/-! ### Allowances -/

theorem debit_grants (h : debit token account amount = .ok token') :
    SameGrants token token' := by
  simp only [debit, bind_eq_ok, pure_eq_ok] at h
  obtain ⟨_, -, rfl⟩ := h
  exact ⟨rfl, rfl⟩

theorem credit_grants (h : credit token account amount = .ok token') :
    SameGrants token token' := by
  simp only [credit, bind_eq_ok, pure_eq_ok] at h
  obtain ⟨_, -, rfl⟩ := h
  exact ⟨rfl, rfl⟩

theorem reduceSupply_grants (h : reduceSupply token amount = .ok token') :
    SameGrants token token' := by
  simp only [reduceSupply, bind_eq_ok, pure_eq_ok] at h
  obtain ⟨_, -, rfl⟩ := h
  exact ⟨rfl, rfl⟩

theorem executeTransfer_grants
    (h : executeTransfer token chain sender recipient amount = .ok token') :
    SameGrants token token' := by
  simp only [executeTransfer, bind_eq_ok] at h
  obtain ⟨_, -, _, hdebit, hcredit⟩ := h
  exact (debit_grants hdebit).trans (credit_grants hcredit)

theorem executeBurn_grants (h : executeBurn token sender amount = .ok token') :
    SameGrants token token' := by
  simp only [executeBurn, bind_eq_ok] at h
  obtain ⟨_, hdebit, hreduce⟩ := h
  exact (debit_grants hdebit).trans (reduceSupply_grants hreduce)

theorem executeMint_grants
    (h : executeMint token chain sender recipient amount = .ok token') :
    SameGrants token token' := by
  simp only [executeMint, bind_eq_ok] at h
  obtain ⟨_, -, _, -, _, -, _, -, _, -, hcredit⟩ := h
  have hgrants := credit_grants hcredit
  exact hgrants

/-! ### Balances -/

theorem balance_save (token : Token) (account : String) (n : Nat) :
    Token.balance
        { token with balances := token.balances.save account n } =
      Function.update token.balance account n := by
  funext other
  by_cases h : other = account
  · subst h
    simp [Token.balance]
  · simp [Token.balance, Map.save_of_ne h, Function.update_of_ne h]

theorem debit_balance (h : debit token account amount = .ok token') :
    amount ≤ token.balance account ∧
      token'.balance = sub token.balance account amount := by
  simp only [debit, bind_eq_ok, subExact_eq_ok, pure_eq_ok] at h
  obtain ⟨_, ⟨hle, rfl⟩, rfl⟩ := h
  exact ⟨hle, balance_save token account _⟩

theorem credit_balance (h : credit token account amount = .ok token') :
    token'.balance = add token.balance account amount := by
  simp only [credit, bind_eq_ok, addBelow_eq_ok, pure_eq_ok] at h
  obtain ⟨_, ⟨-, rfl⟩, rfl⟩ := h
  exact balance_save token account _

theorem deductAllowance_balance
    (h : deductAllowance token chain owner spender amount = .ok token') :
    token'.balance = token.balance := by
  simp only [deductAllowance, bind_eq_ok, pure_eq_ok] at h
  obtain ⟨_, -, _, -, rfl⟩ := h
  rfl

theorem reduceSupply_balance (h : reduceSupply token amount = .ok token') :
    token'.balance = token.balance := by
  simp only [reduceSupply, bind_eq_ok, pure_eq_ok] at h
  obtain ⟨_, -, rfl⟩ := h
  rfl

theorem executeTransfer_posted
    (h : executeTransfer token chain sender recipient amount = .ok token') :
    Posted token.balance (some (.transfer sender recipient amount))
      token'.balance := by
  simp only [executeTransfer, bind_eq_ok, Chain.validate_eq_ok] at h
  obtain ⟨_, ⟨-, rfl⟩, middle, hdebit, hcredit⟩ := h
  obtain ⟨hle, hmiddle⟩ := debit_balance hdebit
  refine ⟨hle, ?_⟩
  rw [credit_balance hcredit, hmiddle]
  rfl

theorem executeBurn_posted (h : executeBurn token sender amount = .ok token') :
    Posted token.balance (some (.withdraw sender amount)) token'.balance := by
  simp only [executeBurn, bind_eq_ok] at h
  obtain ⟨middle, hdebit, hreduce⟩ := h
  obtain ⟨hle, hmiddle⟩ := debit_balance hdebit
  exact ⟨hle, (reduceSupply_balance hreduce).trans hmiddle⟩

theorem executeMint_posted
    (h : executeMint token chain sender recipient amount = .ok token') :
    Posted token.balance (some (.deposit recipient amount))
      token'.balance := by
  simp only [executeMint, bind_eq_ok, Chain.validate_eq_ok] at h
  obtain ⟨_, -, _, -, _, -, _, -, _, ⟨-, rfl⟩, hcredit⟩ := h
  have hbalance := credit_balance hcredit
  exact ⟨trivial, hbalance⟩

theorem executeTransferFrom_posted
    (h : executeTransferFrom token chain sender owner recipient amount =
      .ok token') :
    Posted token.balance (some (.transfer owner recipient amount))
      token'.balance := by
  simp only [executeTransferFrom, bind_eq_ok, Chain.validate_eq_ok] at h
  obtain ⟨_, ⟨-, rfl⟩, _, ⟨-, rfl⟩, first, hdeduct, second, hdebit,
    hcredit⟩ := h
  obtain ⟨hle, hsecond⟩ := debit_balance hdebit
  rw [deductAllowance_balance hdeduct] at hle hsecond
  refine ⟨hle, ?_⟩
  rw [credit_balance hcredit, hsecond]
  rfl

theorem executeBurnFrom_posted
    (h : executeBurnFrom token chain sender owner amount = .ok token') :
    Posted token.balance (some (.withdraw owner amount)) token'.balance := by
  simp only [executeBurnFrom, bind_eq_ok, Chain.validate_eq_ok] at h
  obtain ⟨_, ⟨-, rfl⟩, first, hdeduct, second, hdebit, hreduce⟩ := h
  obtain ⟨hle, hsecond⟩ := debit_balance hdebit
  rw [deductAllowance_balance hdeduct] at hle hsecond
  exact ⟨hle, (reduceSupply_balance hreduce).trans hsecond⟩

theorem executeSend_ok {contract text : String} {call : Cw20ReceiveMsg}
    (h : executeSend token chain sender contract amount text =
      .ok (token', call)) :
    executeTransfer token chain sender contract amount = .ok token' := by
  simp only [executeSend, bind_eq_ok, pure_eq_ok, Prod.mk.injEq] at h
  obtain ⟨_, htransfer, rfl, -⟩ := h
  exact htransfer

theorem executeSendFrom_ok {contract text : String} {call : Cw20ReceiveMsg}
    (h : executeSendFrom token chain sender owner contract amount text =
      .ok (token', call)) :
    executeTransferFrom token chain sender owner contract amount =
      .ok token' := by
  simp only [executeSendFrom, bind_eq_ok, pure_eq_ok, Prod.mk.injEq] at h
  obtain ⟨_, htransfer, rfl, -⟩ := h
  exact htransfer

/-- Every accepted message makes its move of the balances. -/
theorem execute_posted
    (h : execute token chain sender msg = .ok (token', received)) :
    Posted token.balance (msg.move sender) token'.balance := by
  cases msg with
  | transfer recipient amount =>
      exact executeTransfer_posted (quiet_eq_ok.mp h).1
  | burn amount => exact executeBurn_posted (quiet_eq_ok.mp h).1
  | send contract amount text =>
      obtain ⟨_, hsend, -⟩ := notifying_eq_ok.mp h
      exact executeTransfer_posted (executeSend_ok hsend)
  | increaseAllowance spender amount expires =>
      have hincrease := (quiet_eq_ok.mp h).1
      simp only [executeIncreaseAllowance, bind_eq_ok,
        pure_eq_ok] at hincrease
      obtain ⟨_, -, _, -, _, -, _, -, rfl⟩ := hincrease
      rfl
  | decreaseAllowance spender amount expires =>
      have hdecrease := (quiet_eq_ok.mp h).1
      simp only [executeDecreaseAllowance, bind_eq_ok] at hdecrease
      obtain ⟨_, -, _, -, _, -, hdecrease⟩ := hdecrease
      split at hdecrease
      · simp only [bind_eq_ok, pure_eq_ok] at hdecrease
        obtain ⟨_, -, rfl⟩ := hdecrease
        rfl
      · cases hdecrease
        rfl
  | transferFrom owner recipient amount =>
      exact executeTransferFrom_posted (quiet_eq_ok.mp h).1
  | sendFrom owner contract amount text =>
      obtain ⟨_, hsend, -⟩ := notifying_eq_ok.mp h
      exact executeTransferFrom_posted (executeSendFrom_ok hsend)
  | burnFrom owner amount => exact executeBurnFrom_posted (quiet_eq_ok.mp h).1
  | mint recipient amount => exact executeMint_posted (quiet_eq_ok.mp h).1
  | addMinter newMinter =>
      have hadd := (quiet_eq_ok.mp h).1
      simp only [executeAddMinter, bind_eq_ok, pure_eq_ok] at hadd
      obtain ⟨_, -, _, -, rfl⟩ := hadd
      rfl
  | removeMinter minter =>
      have hremove := (quiet_eq_ok.mp h).1
      simp only [executeRemoveMinter, bind_eq_ok, pure_eq_ok] at hremove
      obtain ⟨_, -, rfl⟩ := hremove
      rfl
  | transferAdmin newAdmin =>
      have htransfer := (quiet_eq_ok.mp h).1
      simp only [executeTransferAdmin, bind_eq_ok, pure_eq_ok] at htransfer
      obtain ⟨_, -, _, -, rfl⟩ := htransfer
      rfl

end

/-! ### A token -/

namespace Sample

def chain : Chain := ⟨⟨10, 1000⟩, fun _ => true⟩

def setup : InstantiateMsg :=
  { name := "Liquid"
    symbol := "LSD"
    decimals := 6
    initialBalances := [("ann", 70), ("ben", 50)]
    mint := some ⟨"owner", "pool", some 1000⟩ }

/-- A payment, a mint, a payment to oneself and a burn. -/
def payments : List Call :=
  [⟨chain, "ann", .transfer "ben" 20⟩, ⟨chain, "pool", .mint "ann" 30⟩,
    ⟨chain, "ben", .send "ben" 70 ""⟩, ⟨chain, "ben", .burn 25⟩]

/-- A grant, an expired draw, a draw, and a lower grant. -/
def grants : List Call :=
  [⟨chain, "ann", .increaseAllowance "ben" 40 (some (.atHeight 20))⟩,
    ⟨{ chain with block := ⟨20, 2000⟩ }, "ben", .burnFrom "ann" 5⟩,
    ⟨chain, "ben", .transferFrom "ann" "cat" 15⟩,
    ⟨chain, "ann", .decreaseAllowance "ben" 10 none⟩]

end Sample

end NeutronContracts.LsdToken
