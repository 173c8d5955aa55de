/-
The liquid staking token: balances, supply, minters and allowances, with every
message that moves, creates or destroys tokens.  The marketing information and
the logo are not modelled; no other message reads them.
-/
import NeutronContracts.CosmWasm

namespace NeutronContracts.LsdToken

open Fallible

inductive ContractError
  | std
  | panic
  | unauthorized
  | cannotSetOwnAccount
  | expired
  | noAllowance
  | cannotExceedCap
  | invalidExpiration
  | duplicateInitialBalanceAddresses
  | invalidAddress
deriving DecidableEq, Repr

instance : Panics ContractError := ⟨.panic⟩

abbrev Result := Except ContractError

inductive Expiration
  | atHeight (height : Nat)
  | atTime (time : Nat)
  | never
deriving DecidableEq, Repr

def Expiration.isExpired (expires : Expiration) (block : BlockInfo) : Bool :=
  match expires with
  | .atHeight height => height ≤ block.height
  | .atTime time => time ≤ block.time
  | .never => false

structure AllowanceResponse where
  allowance : Nat
  expires : Expiration
deriving DecidableEq, Repr

structure MinterData where
  admin : String
  minters : List String
  /-- cap is how many more tokens can be issued by the minter -/
  cap : Option Nat

structure TokenInfo where
  name : String
  symbol : String
  decimals : Nat
  totalSupply : Nat
  mint : Option MinterData

def TokenInfo.getCap (info : TokenInfo) : Option Nat :=
  info.mint.bind (·.cap)

/-- The storage of a token contract. -/
structure Token where
  info : TokenInfo
  balances : Map String Nat
  /-- `(owner, spender)` -/
  allowances : Map (String × String) AllowanceResponse
  /-- `(spender, owner)` -/
  allowancesSpender : Map (String × String) AllowanceResponse

/-- `BALANCES.load` with zero for no entry. -/
def Token.balance (token : Token) (account : String) : Nat :=
  (token.balances account).getD 0

/-- What a message can ask the chain: the block, and which texts are
addresses. -/
structure Chain where
  block : BlockInfo
  addrValidate : String → Bool

/-- `addr_validate` returns the text itself when it is an address. -/
def Chain.validate (chain : Chain) (addr : String) : Result String :=
  if chain.addrValidate addr then .ok addr else .error .std

/-! ### Instantiation -/

structure InstantiateMinterData where
  admin : String
  minter : String
  cap : Option Nat

structure InstantiateMsg where
  name : String
  symbol : String
  decimals : Nat
  initialBalances : List (String × Nat)
  mint : Option InstantiateMinterData

def InstantiateMsg.validate (msg : InstantiateMsg) : Result Unit := do
  rejectIf (msg.name.utf8ByteSize < 3 ∨ 50 < msg.name.utf8ByteSize) .std
  rejectIf (msg.symbol.utf8ByteSize < 3 ∨ 12 < msg.symbol.utf8ByteSize) .std
  rejectIf (¬ msg.symbol.toList.all fun c =>
    decide (c = '-') || c.isUpper || c.isLower) .std
  rejectIf (18 < msg.decimals) .std

/-- The loop of `create_accounts`. -/
def createAccounts (chain : Chain) :
    Map String Nat → Nat → List (String × Nat) →
    Result (Map String Nat × Nat)
  | balances, total, [] => return (balances, total)
  | balances, total, (address, amount) :: rest => do
      let address ← chain.validate address
      let total ← Uint128.add total amount
      createAccounts chain (balances.save address amount) total rest

/-- `MinterData` of an instantiate message. -/
def minterData (chain : Chain) (mint : Option InstantiateMinterData) :
    Result (Option MinterData) :=
  match mint with
  | some m => do
      let admin ← chain.validate m.admin
      let minter ← chain.validate m.minter
      return some ⟨admin, [minter], m.cap⟩
  | none => return none

def instantiate (chain : Chain) (msg : InstantiateMsg) : Result Token := do
  msg.validate
  rejectIf (¬ (msg.initialBalances.map Prod.fst).Nodup)
    .duplicateInitialBalanceAddresses
  let (balances, totalSupply) ←
    createAccounts chain Map.empty 0 msg.initialBalances
  rejectIf (∃ limit ∈ msg.mint.bind (·.cap), limit < totalSupply) .std
  let mint ← minterData chain msg.mint
  return {
    info :=
      { name := msg.name
        symbol := msg.symbol
        decimals := msg.decimals
        totalSupply := totalSupply
        mint := mint }
    balances := balances
    allowances := Map.empty
    allowancesSpender := Map.empty }

/-! ### Balances and supply -/

/-- Lower the balance of an account. -/
def debit (token : Token) (account : String) (amount : Nat) :
    Result Token := do
  let balance ← subExact .std (token.balance account) amount
  return { token with balances := token.balances.save account balance }

/-- Raise the balance of an account. -/
def credit (token : Token) (account : String) (amount : Nat) :
    Result Token := do
  let balance ← Uint128.add (token.balance account) amount
  return { token with balances := token.balances.save account balance }

/-- The message a token sends to a contract that receives tokens. -/
structure Cw20ReceiveMsg where
  contract : String
  sender : String
  amount : Nat
  msg : String

def executeTransfer (token : Token) (chain : Chain) (sender recipient : String)
    (amount : Nat) : Result Token := do
  let rcptAddr ← chain.validate recipient
  let token ← debit token sender amount
  credit token rcptAddr amount

def reduceSupply (token : Token) (amount : Nat) : Result Token := do
  let totalSupply ← subExact .std token.info.totalSupply amount
  return { token with info := { token.info with totalSupply := totalSupply } }

def executeBurn (token : Token) (sender : String) (amount : Nat) :
    Result Token := do
  let token ← debit token sender amount
  reduceSupply token amount

def executeMint (token : Token) (chain : Chain) (sender recipient : String)
    (amount : Nat) : Result Token := do
  let mint ← orError token.info.mint .unauthorized
  rejectIf (sender ∉ mint.minters) .unauthorized
  let totalSupply ← Uint128.add token.info.totalSupply amount
  rejectIf (∃ limit ∈ mint.cap, limit < totalSupply) .cannotExceedCap
  let token :=
    { token with info := { token.info with totalSupply := totalSupply } }
  let rcptAddr ← chain.validate recipient
  credit token rcptAddr amount

def executeSend (token : Token) (chain : Chain) (sender contract : String)
    (amount : Nat) (msg : String) : Result (Token × Cw20ReceiveMsg) := do
  let token ← executeTransfer token chain sender contract amount
  return (token, ⟨contract, sender, amount, msg⟩)

/-! ### Minters -/

/-- The minter data, which only its admin may change. -/
def adminMint (token : Token) (sender : String) : Result MinterData := do
  let mint ← orError token.info.mint .unauthorized
  rejectIf (mint.admin ≠ sender) .unauthorized
  return mint

def setMint (token : Token) (mint : MinterData) : Token :=
  { token with info := { token.info with mint := some mint } }

def executeAddMinter (token : Token) (chain : Chain)
    (sender newMinter : String) : Result Token := do
  let mint ← adminMint token sender
  rejectIf (¬ chain.addrValidate newMinter) .invalidAddress
  return setMint token { mint with minters := mint.minters ++ [newMinter] }

def executeRemoveMinter (token : Token) (sender removeMinter : String) :
    Result Token := do
  let mint ← adminMint token sender
  return setMint token
    { mint with
      minters := mint.minters.filter fun minter =>
        decide (minter ≠ removeMinter) }

def executeTransferAdmin (token : Token) (chain : Chain)
    (sender newAdmin : String) : Result Token := do
  let mint ← adminMint token sender
  rejectIf (¬ chain.addrValidate newAdmin) .invalidAddress
  return setMint token { mint with admin := newAdmin }

/-! ### Allowances -/

/-- The update of `execute_increase_allowance`, applied to both indexes. -/
def increased (chain : Chain) (current : Option AllowanceResponse)
    (amount : Nat) (expires : Option Expiration) :
    Result AllowanceResponse := do
  let val := current.getD ⟨0, .never⟩
  rejectIf (∃ exp ∈ expires, exp.isExpired chain.block) .invalidExpiration
  let allowance ← Uint128.add val.allowance amount
  return ⟨allowance, expires.getD val.expires⟩

def executeIncreaseAllowance (token : Token) (chain : Chain)
    (sender spender : String) (amount : Nat) (expires : Option Expiration) :
    Result Token := do
  let spender ← chain.validate spender
  rejectIf (spender = sender) .cannotSetOwnAccount
  let ownerSide ←
    increased chain (token.allowances (sender, spender)) amount expires
  let spenderSide ←
    increased chain (token.allowancesSpender (spender, sender)) amount expires
  return { token with
    allowances := token.allowances.save (sender, spender) ownerSide
    allowancesSpender :=
      token.allowancesSpender.save (spender, sender) spenderSide }

def executeDecreaseAllowance (token : Token) (chain : Chain)
    (sender spender : String) (amount : Nat) (expires : Option Expiration) :
    Result Token := do
  let spender ← chain.validate spender
  rejectIf (spender = sender) .cannotSetOwnAccount
  let allowance ← orError (token.allowances (sender, spender)) .std
  if amount < allowance.allowance then
    rejectIf (∃ exp ∈ expires, exp.isExpired chain.block) .invalidExpiration
    let allowance : AllowanceResponse :=
      ⟨allowance.allowance - amount, expires.getD allowance.expires⟩
    return { token with
      allowances := token.allowances.save (sender, spender) allowance
      allowancesSpender :=
        token.allowancesSpender.save (spender, sender) allowance }
  else
    return { token with
      allowances := token.allowances.remove (sender, spender)
      allowancesSpender := token.allowancesSpender.remove (spender, sender) }

/-- The update of `deduct_allowance`, applied to both indexes. -/
def deducted (chain : Chain) (current : Option AllowanceResponse)
    (amount : Nat) : Result AllowanceResponse := do
  let a ← orError current .noAllowance
  rejectIf (a.expires.isExpired chain.block) .expired
  let allowance ← subExact .std a.allowance amount
  return { a with allowance := allowance }

def deductAllowance (token : Token) (chain : Chain) (owner spender : String)
    (amount : Nat) : Result Token := do
  let ownerSide ← deducted chain (token.allowances (owner, spender)) amount
  let spenderSide ←
    deducted chain (token.allowancesSpender (spender, owner)) amount
  return { token with
    allowances := token.allowances.save (owner, spender) ownerSide
    allowancesSpender :=
      token.allowancesSpender.save (spender, owner) spenderSide }

def executeTransferFrom (token : Token) (chain : Chain)
    (sender owner recipient : String) (amount : Nat) : Result Token := do
  let rcptAddr ← chain.validate recipient
  let ownerAddr ← chain.validate owner
  let token ← deductAllowance token chain ownerAddr sender amount
  let token ← debit token ownerAddr amount
  credit token rcptAddr amount

def executeBurnFrom (token : Token) (chain : Chain) (sender owner : String)
    (amount : Nat) : Result Token := do
  let ownerAddr ← chain.validate owner
  let token ← deductAllowance token chain ownerAddr sender amount
  let token ← debit token ownerAddr amount
  reduceSupply token amount

def executeSendFrom (token : Token) (chain : Chain)
    (sender owner contract : String) (amount : Nat) (msg : String) :
    Result (Token × Cw20ReceiveMsg) := do
  let token ← executeTransferFrom token chain sender owner contract amount
  return (token, ⟨contract, sender, amount, msg⟩)

/-! ### Dispatch -/

inductive ExecuteMsg
  | transfer (recipient : String) (amount : Nat)
  | burn (amount : Nat)
  | send (contract : String) (amount : Nat) (msg : String)
  | increaseAllowance (spender : String) (amount : Nat)
      (expires : Option Expiration)
  | decreaseAllowance (spender : String) (amount : Nat)
      (expires : Option Expiration)
  | transferFrom (owner recipient : String) (amount : Nat)
  | sendFrom (owner contract : String) (amount : Nat) (msg : String)
  | burnFrom (owner : String) (amount : Nat)
  | mint (recipient : String) (amount : Nat)
  | addMinter (newMinter : String)
  | removeMinter (removeMinter : String)
  | transferAdmin (newAdmin : String)

/-- A result without a message to a receiving contract. -/
def quiet (result : Result Token) : Result (Token × Option Cw20ReceiveMsg) :=
  result.map (·, none)

/-- A result with a message to the receiving contract. -/
def notifying (result : Result (Token × Cw20ReceiveMsg)) :
    Result (Token × Option Cw20ReceiveMsg) :=
  result.map fun (token, msg) => (token, some msg)

def execute (token : Token) (chain : Chain) (sender : String)
    (msg : ExecuteMsg) : Result (Token × Option Cw20ReceiveMsg) :=
  match msg with
  | .transfer recipient amount =>
      quiet (executeTransfer token chain sender recipient amount)
  | .burn amount => quiet (executeBurn token sender amount)
  | .send contract amount msg =>
      notifying (executeSend token chain sender contract amount msg)
  | .increaseAllowance spender amount expires =>
      quiet
        (executeIncreaseAllowance token chain sender spender amount expires)
  | .decreaseAllowance spender amount expires =>
      quiet
        (executeDecreaseAllowance token chain sender spender amount expires)
  | .transferFrom owner recipient amount =>
      quiet (executeTransferFrom token chain sender owner recipient amount)
  | .sendFrom owner contract amount msg =>
      notifying (executeSendFrom token chain sender owner contract amount msg)
  | .burnFrom owner amount =>
      quiet (executeBurnFrom token chain sender owner amount)
  | .mint recipient amount =>
      quiet (executeMint token chain sender recipient amount)
  | .addMinter newMinter =>
      quiet (executeAddMinter token chain sender newMinter)
  | .removeMinter minter => quiet (executeRemoveMinter token sender minter)
  | .transferAdmin newAdmin =>
      quiet (executeTransferAdmin token chain sender newAdmin)

/-! ### The supply -/

/-- The tokens a message creates. -/
def ExecuteMsg.minted : ExecuteMsg → Nat
  | .mint _ amount => amount
  | _ => 0

/-- The tokens a message destroys. -/
def ExecuteMsg.burned : ExecuteMsg → Nat
  | .burn amount => amount
  | .burnFrom _ amount => amount
  | _ => 0

section

variable {token token' : Token} {chain : Chain} {sender account : String}
  {amount : Nat} {msg : ExecuteMsg} {received : Option Cw20ReceiveMsg}

theorem debit_info (h : debit token account amount = .ok token') :
    token'.info = token.info := by
  simp only [debit, bind_eq_ok, pure_eq_ok] at h
  obtain ⟨_, -, rfl⟩ := h
  rfl

theorem credit_info (h : credit token account amount = .ok token') :
    token'.info = token.info := by
  simp only [credit, bind_eq_ok, pure_eq_ok] at h
  obtain ⟨_, -, rfl⟩ := h
  rfl

theorem deductAllowance_info {owner spender : String}
    (h : deductAllowance token chain owner spender amount = .ok token') :
    token'.info = token.info := by
  simp only [deductAllowance, bind_eq_ok, pure_eq_ok] at h
  obtain ⟨_, -, _, -, rfl⟩ := h
  rfl

theorem executeTransfer_info {recipient : String}
    (h : executeTransfer token chain sender recipient amount = .ok token') :
    token'.info = token.info := by
  simp only [executeTransfer, bind_eq_ok] at h
  obtain ⟨_, -, middle, hdebit, hcredit⟩ := h
  exact (credit_info hcredit).trans (debit_info hdebit)

theorem executeTransferFrom_info {owner recipient : String}
    (h : executeTransferFrom token chain sender owner recipient amount =
      .ok token') : token'.info = token.info := by
  simp only [executeTransferFrom, bind_eq_ok] at h
  obtain ⟨_, -, _, -, first, hdeduct, second, hdebit, hcredit⟩ := h
  calc token'.info
      = second.info := credit_info hcredit
    _ = first.info := debit_info hdebit
    _ = token.info := deductAllowance_info hdeduct

theorem reduceSupply_supply (h : reduceSupply token amount = .ok token') :
    token'.info.totalSupply + amount = token.info.totalSupply := by
  simp only [reduceSupply, bind_eq_ok, subExact_eq_ok, pure_eq_ok] at h
  obtain ⟨_, ⟨hle, rfl⟩, rfl⟩ := h
  exact Nat.sub_add_cancel hle

theorem executeBurn_supply (h : executeBurn token sender amount = .ok token') :
    token'.info.totalSupply + amount = token.info.totalSupply := by
  simp only [executeBurn, bind_eq_ok] at h
  obtain ⟨middle, hdebit, hreduce⟩ := h
  rw [reduceSupply_supply hreduce, debit_info hdebit]

theorem executeBurnFrom_supply {owner : String}
    (h : executeBurnFrom token chain sender owner amount = .ok token') :
    token'.info.totalSupply + amount = token.info.totalSupply := by
  simp only [executeBurnFrom, bind_eq_ok] at h
  obtain ⟨_, -, first, hdeduct, second, hdebit, hreduce⟩ := h
  rw [reduceSupply_supply hreduce, debit_info hdebit,
    deductAllowance_info hdeduct]

/-- Only a minter creates tokens. -/
theorem executeMint_supply {recipient : String}
    (h : executeMint token chain sender recipient amount = .ok token') :
    (∃ mint, token.info.mint = some mint ∧ sender ∈ mint.minters) ∧
      token'.info.totalSupply = token.info.totalSupply + amount := by
  simp only [executeMint, bind_eq_ok, orError_eq_ok, rejectIf_eq_ok,
    addBelow_eq_ok, Decidable.not_not] at h
  obtain ⟨mint, hmint, _, hminter, _, ⟨-, rfl⟩, _, -, _, -, hcredit⟩ := h
  exact ⟨⟨mint, hmint, hminter⟩, by rw [credit_info hcredit]⟩

@[simp] theorem quiet_eq_ok {result : Result Token} :
    quiet result = .ok (token', received) ↔
      result = .ok token' ∧ received = none := by
  cases result <;> simp [quiet, Except.map, eq_comm]

@[simp] theorem notifying_eq_ok {result : Result (Token × Cw20ReceiveMsg)} :
    notifying result = .ok (token', received) ↔
      ∃ call, result = .ok (token', call) ∧ received = some call := by
  cases result with
  | error e => simp [notifying, Except.map]
  | ok pair =>
      obtain ⟨token'', call⟩ := pair
      simp [notifying, Except.map, eq_comm]

/-- The supply after a message is what it was, with the tokens the message
creates and without those it destroys. -/
theorem execute_supply
    (h : execute token chain sender msg = .ok (token', received)) :
    token'.info.totalSupply + msg.burned =
      token.info.totalSupply + msg.minted := by
  cases msg with
  | transfer recipient amount =>
      rw [executeTransfer_info (quiet_eq_ok.mp h).1]
      rfl
  | burn amount => exact executeBurn_supply (quiet_eq_ok.mp h).1
  | send contract amount text =>
      obtain ⟨_, hsend, -⟩ := notifying_eq_ok.mp h
      simp only [executeSend, bind_eq_ok, pure_eq_ok, Prod.mk.injEq] at hsend
      obtain ⟨_, htransfer, rfl, -⟩ := hsend
      rw [executeTransfer_info htransfer]
      rfl
  | increaseAllowance spender amount expires =>
      have hincrease := (quiet_eq_ok.mp h).1
      simp only [executeIncreaseAllowance, bind_eq_ok,
        pure_eq_ok] at hincrease
      obtain ⟨_, -, _, -, _, -, _, -, rfl⟩ := hincrease
      rfl
  | decreaseAllowance spender amount expires =>
      have hdecrease := (quiet_eq_ok.mp h).1
      simp only [executeDecreaseAllowance, bind_eq_ok] at hdecrease
      obtain ⟨_, -, _, -, _, -, hdecrease⟩ := hdecrease
      split at hdecrease
      · simp only [bind_eq_ok, pure_eq_ok] at hdecrease
        obtain ⟨_, -, rfl⟩ := hdecrease
        rfl
      · cases hdecrease
        rfl
  | transferFrom owner recipient amount =>
      rw [executeTransferFrom_info (quiet_eq_ok.mp h).1]
      rfl
  | sendFrom owner contract amount text =>
      obtain ⟨_, hsend, -⟩ := notifying_eq_ok.mp h
      simp only [executeSendFrom, bind_eq_ok, pure_eq_ok,
        Prod.mk.injEq] at hsend
      obtain ⟨_, htransfer, rfl, -⟩ := hsend
      rw [executeTransferFrom_info htransfer]
      rfl
  | burnFrom owner amount => exact executeBurnFrom_supply (quiet_eq_ok.mp h).1
  | mint recipient amount => exact (executeMint_supply (quiet_eq_ok.mp h).1).2
  | addMinter newMinter =>
      have hadd := (quiet_eq_ok.mp h).1
      simp only [executeAddMinter, bind_eq_ok, pure_eq_ok] at hadd
      obtain ⟨_, -, _, -, rfl⟩ := hadd
      rfl
  | removeMinter minter =>
      have hremove := (quiet_eq_ok.mp h).1
      simp only [executeRemoveMinter, bind_eq_ok, pure_eq_ok] at hremove
      obtain ⟨_, -, rfl⟩ := hremove
      rfl
  | transferAdmin newAdmin =>
      have htransfer := (quiet_eq_ok.mp h).1
      simp only [executeTransferAdmin, bind_eq_ok, pure_eq_ok] at htransfer
      obtain ⟨_, -, _, -, rfl⟩ := htransfer
      rfl

/-- A message that creates tokens comes from a minter. -/
theorem execute_minter
    (h : execute token chain sender msg = .ok (token', received))
    (hminted : msg.minted ≠ 0) :
    ∃ mint, token.info.mint = some mint ∧ sender ∈ mint.minters := by
  cases msg with
  | mint recipient amount => exact (executeMint_supply (quiet_eq_ok.mp h).1).1
  | _ => exact absurd rfl hminted

/-- The supply of a new token without initial balances is zero. -/
theorem instantiate_supply {msg : InstantiateMsg}
    (h : instantiate chain msg = .ok token)
    (hempty : msg.initialBalances = []) : token.info.totalSupply = 0 := by
  simp only [instantiate, hempty, bind_eq_ok, createAccounts, pure_eq_ok,
    Prod.exists, Prod.mk.injEq] at h
  obtain ⟨_, -, _, -, _, _, ⟨rfl, rfl⟩, _, -, _, -, rfl⟩ := h
  rfl

end

end NeutronContracts.LsdToken
