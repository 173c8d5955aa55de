/-
Who may take tokens from an account of the liquid staking token: its owner,
and a spender within what the owner granted and before the grant expires.
-/
import NeutronContracts.LsdToken.Ledger

namespace NeutronContracts.LsdToken

open Fallible Holdings

/-- What every owner granted to every spender so far, and what the spender
took of it, both under `(owner, spender)`. -/
structure Consents where
  granted : Book (String × String)
  spent : Book (String × String)

def Consents.none : Consents := ⟨empty, empty⟩

/-- Messages that fail grant nothing and take nothing. -/
def Consents.observe (h : Consents) (token : Token) (call : Call)
    (_ : Token) : Consents :=
  match execute token call.chain call.sender call.msg with
  | .ok _ =>
      { granted := fun pair =>
          h.granted pair + call.msg.granted call.sender pair
        spent := fun pair => h.spent pair + call.msg.drawn call.sender pair }
  | .error _ => h

/-- The recorded allowance covers the amount at this block. -/
def Covers (block : BlockInfo) (amount : Nat)
    (allowance : AllowanceResponse) : Prop :=
  allowance.expires.isExpired block = false ∧ amount ≤ allowance.allowance

section

variable {token token' : Token} {chain : Chain}
  {sender account owner spender recipient : String} {amount : Nat}
  {msg : ExecuteMsg} {received : Option Cw20ReceiveMsg}
  {pair : String × String}

/-! ### Allowances -/

/-- An allowance from which an amount was taken under `pair`. -/
def Deducted (token token' : Token) (block : BlockInfo)
    (pair : String × String) (amount : Nat) : Prop :=
  ∃ allowance, token.allowances pair = some allowance ∧
    Covers block amount allowance ∧
    token'.allowances = token.allowances.save pair
      { allowance with allowance := allowance.allowance - amount }

theorem deductAllowance_deducted
    (h : deductAllowance token chain owner spender amount = .ok token') :
    Deducted token token' chain.block (owner, spender) amount := by
  simp only [deductAllowance, deducted, bind_eq_ok, orError_eq_ok,
    rejectIf_eq_ok, subExact_eq_ok, pure_eq_ok, Bool.not_eq_true] at h
  obtain ⟨_, ⟨a, ha, _, hexpired, _, ⟨hle, rfl⟩, rfl⟩, _, -, rfl⟩ := h
  exact ⟨a, ha, ⟨hexpired, hle⟩, rfl⟩

theorem executeTransferFrom_deducted
    (h : executeTransferFrom token chain sender owner recipient amount =
      .ok token') :
    Deducted token token' chain.block (owner, sender) amount := by
  simp only [executeTransferFrom, bind_eq_ok, Chain.validate_eq_ok] at h
  obtain ⟨_, -, _, ⟨-, rfl⟩, _, hdeduct, _, hdebit, hcredit⟩ := h
  obtain ⟨a, ha, hcovers, hsave⟩ := deductAllowance_deducted hdeduct
  refine ⟨a, ha, hcovers, ?_⟩
  rw [(credit_grants hcredit).1, (debit_grants hdebit).1, hsave]

theorem executeBurnFrom_deducted
    (h : executeBurnFrom token chain sender owner amount = .ok token') :
    Deducted token token' chain.block (owner, sender) amount := by
  simp only [executeBurnFrom, bind_eq_ok, Chain.validate_eq_ok] at h
  obtain ⟨_, ⟨-, rfl⟩, _, hdeduct, _, hdebit, hreduce⟩ := h
  obtain ⟨a, ha, hcovers, hsave⟩ := deductAllowance_deducted hdeduct
  refine ⟨a, ha, hcovers, ?_⟩
  rw [(reduceSupply_grants hreduce).1, (debit_grants hdebit).1, hsave]

/-- A message takes from the account of another only under an allowance. -/
theorem execute_deducted
    (h : execute token chain sender msg = .ok (token', received))
    (hdraw : msg.draw = some (owner, amount)) :
    Deducted token token' chain.block (owner, sender) amount := by
  cases msg with
  | transferFrom owner recipient amount =>
      cases hdraw
      exact executeTransferFrom_deducted (quiet_eq_ok.mp h).1
  | sendFrom owner contract amount text =>
      cases hdraw
      obtain ⟨_, hsend, -⟩ := notifying_eq_ok.mp h
      exact executeTransferFrom_deducted (executeSendFrom_ok hsend)
  | burnFrom owner amount =>
      cases hdraw
      exact executeBurnFrom_deducted (quiet_eq_ok.mp h).1
  | _ => cases hdraw

theorem allowed_congr (h : token'.allowances = token.allowances) :
    token'.allowed = token.allowed := by
  funext pair
  rw [Token.allowed, Token.allowed, h]

theorem allowed_save {a : AllowanceResponse}
    (h : token'.allowances = token.allowances.save pair a) :
    token'.allowed = Function.update token.allowed pair a.allowance := by
  funext other
  rw [Token.allowed, h]
  by_cases heq : other = pair
  · subst heq
    rw [Map.save_self, Function.update_self]
    rfl
  · rw [Map.save_of_ne heq, Function.update_of_ne heq]
    rfl

theorem allowed_remove {key : String × String}
    (h : token'.allowances = token.allowances.remove key) :
    token'.allowed pair ≤ token.allowed pair := by
  rw [Token.allowed, h, Map.remove_apply]
  split
  · exact Nat.zero_le _
  · exact le_rfl

theorem Deducted.allowed_le {block : BlockInfo} {key : String × String}
    (h : Deducted token token' block key amount) :
    token'.allowed pair + add empty key amount pair ≤ token.allowed pair := by
  obtain ⟨a, ha, ⟨-, hle⟩, hsave⟩ := h
  rw [allowed_save hsave]
  by_cases heq : pair = key
  · subst heq
    simp only [add, empty, Function.update_self, Token.allowed, ha,
      Option.map_some, Option.getD_some]
    omega
  · simp [add, empty, Function.update_of_ne heq]

theorem executeIncreaseAllowance_allowed {expires : Option Expiration}
    (h : executeIncreaseAllowance token chain sender spender amount expires =
      .ok token') :
    token'.allowed = add token.allowed (sender, spender) amount := by
  simp only [executeIncreaseAllowance, increased, bind_eq_ok,
    Chain.validate_eq_ok, addBelow_eq_ok, pure_eq_ok] at h
  obtain ⟨_, ⟨-, rfl⟩, _, -, _, ⟨_, -, _, ⟨-, rfl⟩, rfl⟩, _, -, rfl⟩ := h
  rw [@allowed_save token _ _ _ rfl, add]
  congr 1
  rw [Token.allowed]
  cases token.allowances (sender, _) <;> rfl

theorem executeDecreaseAllowance_allowed {expires : Option Expiration}
    (h : executeDecreaseAllowance token chain sender spender amount expires =
      .ok token') : token'.allowed pair ≤ token.allowed pair := by
  simp only [executeDecreaseAllowance, bind_eq_ok, Chain.validate_eq_ok,
    orError_eq_ok] at h
  obtain ⟨_, ⟨-, rfl⟩, _, -, a, ha, h⟩ := h
  split at h
  · simp only [bind_eq_ok, pure_eq_ok] at h
    obtain ⟨_, -, rfl⟩ := h
    rw [@allowed_save token _ _ _ rfl, Function.update_apply]
    split
    · next heq =>
        rw [heq, Token.allowed, ha]
        exact Nat.sub_le _ _
    · exact le_rfl
  · cases h
    exact allowed_remove rfl

/-- What may still be taken grows by grants only, and what is taken is no
longer allowed. -/
theorem execute_allowed
    (h : execute token chain sender msg = .ok (token', received)) :
    token'.allowed pair + msg.drawn sender pair ≤
      token.allowed pair + msg.granted sender pair := by
  cases msg with
  | transfer recipient amount =>
      rw [allowed_congr (executeTransfer_grants (quiet_eq_ok.mp h).1).1]
      rfl
  | burn amount =>
      rw [allowed_congr (executeBurn_grants (quiet_eq_ok.mp h).1).1]
      rfl
  | send contract amount text =>
      obtain ⟨_, hsend, -⟩ := notifying_eq_ok.mp h
      have htransfer := executeSend_ok hsend
      rw [allowed_congr (executeTransfer_grants htransfer).1]
      rfl
  | increaseAllowance spender amount expires =>
      have hincrease := (quiet_eq_ok.mp h).1
      rw [executeIncreaseAllowance_allowed hincrease, ExecuteMsg.granted]
      by_cases heq : pair = (sender, spender)
      · subst heq
        simp [add, empty, ExecuteMsg.drawn, ExecuteMsg.draw]
      · simp [add, empty, Function.update_of_ne heq, ExecuteMsg.drawn,
          ExecuteMsg.draw]
  | decreaseAllowance spender amount expires =>
      exact executeDecreaseAllowance_allowed (quiet_eq_ok.mp h).1
  | transferFrom owner recipient amount =>
      exact (execute_deducted h rfl).allowed_le
  | sendFrom owner contract amount text =>
      exact (execute_deducted h rfl).allowed_le
  | burnFrom owner amount => exact (execute_deducted h rfl).allowed_le
  | mint recipient amount =>
      rw [allowed_congr (executeMint_grants (quiet_eq_ok.mp h).1).1]
      rfl
  | addMinter newMinter =>
      have hadd := (quiet_eq_ok.mp h).1
      simp only [executeAddMinter, bind_eq_ok, pure_eq_ok] at hadd
      obtain ⟨_, -, _, -, rfl⟩ := hadd
      rfl
  | removeMinter minter =>
      have hremove := (quiet_eq_ok.mp h).1
      simp only [executeRemoveMinter, bind_eq_ok, pure_eq_ok] at hremove
      obtain ⟨_, -, rfl⟩ := hremove
      rfl
  | transferAdmin newAdmin =>
      have htransfer := (quiet_eq_ok.mp h).1
      simp only [executeTransferAdmin, bind_eq_ok, pure_eq_ok] at htransfer
      obtain ⟨_, -, _, -, rfl⟩ := htransfer
      rfl

/-- What a message takes from an account it takes as its sender or draws. -/
theorem taken_consented {move : Move String}
    (hmove : msg.move sender = some move) (htaken : move.taken account ≠ 0) :
    account = sender ∧ msg.spend = some (move.taken account) ∨
      msg.draw = some (account, move.taken account) := by
  cases msg with
  | transfer recipient amount =>
      cases hmove
      obtain ⟨rfl, -⟩ := ite_ne_right_iff.mp htaken
      exact .inl ⟨rfl, by simp [ExecuteMsg.spend, Move.taken]⟩
  | burn amount =>
      cases hmove
      obtain ⟨rfl, -⟩ := ite_ne_right_iff.mp htaken
      exact .inl ⟨rfl, by simp [ExecuteMsg.spend, Move.taken]⟩
  | send contract amount text =>
      cases hmove
      obtain ⟨rfl, -⟩ := ite_ne_right_iff.mp htaken
      exact .inl ⟨rfl, by simp [ExecuteMsg.spend, Move.taken]⟩
  | transferFrom owner recipient amount =>
      cases hmove
      obtain ⟨rfl, -⟩ := ite_ne_right_iff.mp htaken
      exact .inr (by simp [ExecuteMsg.draw, Move.taken])
  | sendFrom owner contract amount text =>
      cases hmove
      obtain ⟨rfl, -⟩ := ite_ne_right_iff.mp htaken
      exact .inr (by simp [ExecuteMsg.draw, Move.taken])
  | burnFrom owner amount =>
      cases hmove
      obtain ⟨rfl, -⟩ := ite_ne_right_iff.mp htaken
      exact .inr (by simp [ExecuteMsg.draw, Move.taken])
  | mint recipient amount =>
      cases hmove
      exact absurd rfl htaken
  | increaseAllowance spender amount expires => cases hmove
  | decreaseAllowance spender amount expires => cases hmove
  | addMinter newMinter => cases hmove
  | removeMinter minter => cases hmove
  | transferAdmin newAdmin => cases hmove

/-- An account that loses tokens is the sender's, or the message draws on
it. -/
theorem execute_debit
    (h : execute token chain sender msg = .ok (token', received))
    (hless : token'.balance account < token.balance account) :
    ∃ amount, token.balance account ≤ token'.balance account + amount ∧
      (account = sender ∧ msg.spend = some amount ∨
        msg.draw = some (account, amount)) := by
  have hposted := execute_posted h
  cases hmove : msg.move sender with
  | none =>
      rw [hmove] at hposted
      have heq : token'.balance = token.balance := hposted
      rw [heq] at hless
      exact absurd hless (lt_irrefl _)
  | some move =>
      rw [hmove] at hposted
      have hle : token.balance account ≤
          token'.balance account + move.taken account := by
        rw [hposted.2]
        exact le_apply move account
      exact ⟨_, hle, taken_consented hmove (by omega)⟩

end

/-! ### Runs -/

/-- What was spent and what may still be spent was granted. -/
def WithinGrants : Token × Consents → Prop
  | (token, h) => ∀ pair, h.spent pair + token.allowed pair ≤ h.granted pair

theorem withinGrants_step {token token' : Token} {h h' : Consents}
    {call : Call} (hinv : WithinGrants (token, h))
    (hstep : Transition.track Token.step Consents.observe (token, h) call =
      some (token', h')) : WithinGrants (token', h') := by
  obtain ⟨hnext, rfl⟩ := Transition.track_eq_some.mp hstep
  cases hnext
  intro pair
  have hbefore := hinv pair
  unfold Token.deliver Consents.observe
  cases hcall : execute token call.chain call.sender call.msg with
  | error e => exact hbefore
  | ok result =>
      have hallowed := @execute_allowed _ _ _ _ _ _ pair hcall
      dsimp only
      omega

/-- In every state that any messages lead to, a spender took from an owner
and may still take at most what the owner granted, a message that draws on an
account has an allowance that covers it at that block, and whatever a message
takes from an account it spends as that account or draws. -/
theorem debited_by_consent {chain : Chain} {msg : InstantiateMsg}
    {token₀ token : Token} {h : Consents} {calls : List Call}
    (hstart : instantiate chain msg = .ok token₀)
    (hrun : Transition.exec (Transition.track Token.step Consents.observe)
      (token₀, Consents.none) calls = some (token, h)) :
    (∀ owner spender, h.spent (owner, spender) +
      token.allowed (owner, spender) ≤ h.granted (owner, spender)) ∧
    (∀ (call : Call) (next : Token) (received : Option Cw20ReceiveMsg)
      (owner : String) (amount : Nat),
      execute token call.chain call.sender call.msg = .ok (next, received) →
      call.msg.draw = some (owner, amount) →
      ∃ allowance, token.allowances (owner, call.sender) = some allowance ∧
        Covers call.chain.block amount allowance) ∧
    ∀ (call : Call) (account : String),
      (token.deliver call).balance account < token.balance account →
      ∃ amount, token.balance account ≤
          (token.deliver call).balance account + amount ∧
        (account = call.sender ∧ call.msg.spend = some amount ∨
          call.msg.draw = some (account, amount) ∧
            ∃ allowance,
              token.allowances (account, call.sender) = some allowance ∧
                Covers call.chain.block amount allowance) := by
  have hinit : WithinGrants (token₀, Consents.none) := by
    simp only [instantiate, bind_eq_ok, pure_eq_ok, Prod.exists] at hstart
    obtain ⟨_, -, _, -, _, _, -, _, -, _, -, rfl⟩ := hstart
    exact fun _ => Nat.zero_le _
  have hinv := Transition.exec_invariant WithinGrants
    (fun _ _ _ => withinGrants_step) hinit hrun
  refine ⟨fun owner spender => hinv (owner, spender), ?_, ?_⟩
  · intro call next received owner amount hcall hdraw
    obtain ⟨allowance, hmem, hcovers, -⟩ := execute_deducted hcall hdraw
    exact ⟨allowance, hmem, hcovers⟩
  · intro call account hless
    rcases token.deliver_cases call with heq | ⟨_, hcall⟩
    · rw [heq] at hless
      exact absurd hless (lt_irrefl _)
    · obtain ⟨amount, hle, hspend | hdraw⟩ := execute_debit hcall hless
      · exact ⟨amount, hle, .inl hspend⟩
      · obtain ⟨allowance, hmem, hcovers, -⟩ := execute_deducted hcall hdraw
        exact ⟨amount, hle, .inr ⟨hdraw, allowance, hmem, hcovers⟩⟩

theorem debited_by_consent_sample :
    ∃ token₀ token h, instantiate Sample.chain Sample.setup = .ok token₀ ∧
      Transition.exec (Transition.track Token.step Consents.observe)
        (token₀, Consents.none) Sample.grants = some (token, h) ∧
      h.spent ("ann", "ben") = 15 ∧ token.allowed ("ann", "ben") = 15 ∧
      h.spent ("ann", "ben") + token.allowed ("ann", "ben") ≤
        h.granted ("ann", "ben") := by
  have hrun : ((instantiate Sample.chain Sample.setup).toOption.bind
      fun token => Transition.exec
        (Transition.track Token.step Consents.observe)
          (token, Consents.none) Sample.grants).map
        (fun last => (last.2.spent ("ann", "ben"),
          last.1.allowed ("ann", "ben"))) = some (15, 15) := by
    decide +kernel
  obtain ⟨⟨token, h⟩, hrun, hlast⟩ := Option.map_eq_some_iff.mp hrun
  obtain ⟨token₀, hstart, hrun⟩ := Option.bind_eq_some_iff.mp hrun
  rw [Prod.mk.injEq] at hlast
  have hstart := toOption_eq_some.mp hstart
  exact ⟨token₀, token, h, hstart, hrun, hlast.1, hlast.2,
    (debited_by_consent hstart hrun).1 "ann" "ben"⟩

end NeutronContracts.LsdToken
