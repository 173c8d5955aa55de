/-
The two indexes of the allowances.  Every message edits both under turned
keys, and the migration writes what the second index holds already, so the
listing by owner and the listing by spender report the same grants.
-/
import NeutronContracts.LsdToken.Enumerable

namespace NeutronContracts.LsdToken

open Fallible

/-- A message, or a migration; a migration that fails is reverted. -/
inductive Step : Token → Token → Prop
  | call (token : Token) (call : Call) : Step token (token.deliver call)
  | migrate {token token' : Token} {older : Result Bool}
      {data : token.allowances.Entries}
      (h : migrate token older data = .ok token') : Step token token'

/-- One change, made to both indexes. -/
def Edited (token token' : Token) : Prop :=
  ∃ edit : Map.Edit (String × String) AllowanceResponse,
    token'.allowances = edit.apply token.allowances ∧
    token'.allowancesSpender = edit.swap.apply token.allowancesSpender

/-- The indexes mirror each other and hold finitely many allowances. -/
structure Mirrored (token : Token) : Prop where
  mirrors : token.allowances.Mirrors token.allowancesSpender
  finite : token.allowances.stored.Finite

section

variable {token token' : Token} {chain : Chain}
  {sender owner spender recipient : String} {amount : Nat}
  {msg : ExecuteMsg} {received : Option Cw20ReceiveMsg}
  {expires : Option Expiration}

theorem SameGrants.edited (h : SameGrants token token') :
    Edited token token' :=
  ⟨.keep, h.1, h.2⟩

theorem Edited.of_same {middle : Token} (h : Edited token middle)
    (hsame : SameGrants middle token') : Edited token token' := by
  obtain ⟨edit, howner, hspender⟩ := h
  exact ⟨edit, hsame.1.trans howner, hsame.2.trans hspender⟩

theorem executeIncreaseAllowance_edited
    (hmirrors : token.allowances.Mirrors token.allowancesSpender)
    (h : executeIncreaseAllowance token chain sender spender amount expires =
      .ok token') : Edited token token' := by
  simp only [executeIncreaseAllowance, bind_eq_ok, Chain.validate_eq_ok,
    pure_eq_ok] at h
  obtain ⟨_, ⟨-, rfl⟩, _, -, ownerSide, howner, spenderSide, hspender,
    rfl⟩ := h
  rw [← hmirrors, howner, Except.ok.injEq] at hspender
  subst hspender
  exact ⟨.save (sender, _) ownerSide, rfl, rfl⟩

theorem executeDecreaseAllowance_edited
    (h : executeDecreaseAllowance token chain sender spender amount expires =
      .ok token') : Edited token token' := by
  simp only [executeDecreaseAllowance, bind_eq_ok, Chain.validate_eq_ok] at h
  obtain ⟨_, ⟨-, rfl⟩, _, -, allowance, -, h⟩ := h
  split at h
  · simp only [bind_eq_ok, pure_eq_ok] at h
    obtain ⟨_, -, rfl⟩ := h
    exact ⟨.save (sender, _) _, rfl, rfl⟩
  · cases h
    exact ⟨.remove (sender, _), rfl, rfl⟩

theorem deductAllowance_edited
    (hmirrors : token.allowances.Mirrors token.allowancesSpender)
    (h : deductAllowance token chain owner spender amount = .ok token') :
    Edited token token' := by
  simp only [deductAllowance, bind_eq_ok, pure_eq_ok] at h
  obtain ⟨ownerSide, howner, spenderSide, hspender, rfl⟩ := h
  rw [← hmirrors, howner, Except.ok.injEq] at hspender
  subst hspender
  exact ⟨.save (owner, spender) ownerSide, rfl, rfl⟩

theorem executeTransferFrom_edited
    (hmirrors : token.allowances.Mirrors token.allowancesSpender)
    (h : executeTransferFrom token chain sender owner recipient amount =
      .ok token') : Edited token token' := by
  simp only [executeTransferFrom, bind_eq_ok] at h
  obtain ⟨_, -, _, -, _, hdeduct, _, hdebit, hcredit⟩ := h
  exact (deductAllowance_edited hmirrors hdeduct).of_same
    ((debit_grants hdebit).trans (credit_grants hcredit))

theorem executeBurnFrom_edited
    (hmirrors : token.allowances.Mirrors token.allowancesSpender)
    (h : executeBurnFrom token chain sender owner amount = .ok token') :
    Edited token token' := by
  simp only [executeBurnFrom, bind_eq_ok] at h
  obtain ⟨_, -, _, hdeduct, _, hdebit, hreduce⟩ := h
  exact (deductAllowance_edited hmirrors hdeduct).of_same
    ((debit_grants hdebit).trans (reduceSupply_grants hreduce))

/-- Every accepted message makes one change to both indexes. -/
theorem execute_edited
    (hmirrors : token.allowances.Mirrors token.allowancesSpender)
    (h : execute token chain sender msg = .ok (token', received)) :
    Edited token token' := by
  cases msg with
  | transfer recipient amount =>
      exact (executeTransfer_grants (quiet_eq_ok.mp h).1).edited
  | burn amount => exact (executeBurn_grants (quiet_eq_ok.mp h).1).edited
  | send contract amount text =>
      obtain ⟨_, hsend, -⟩ := notifying_eq_ok.mp h
      exact (executeTransfer_grants (executeSend_ok hsend)).edited
  | increaseAllowance spender amount expires =>
      exact executeIncreaseAllowance_edited hmirrors (quiet_eq_ok.mp h).1
  | decreaseAllowance spender amount expires =>
      exact executeDecreaseAllowance_edited (quiet_eq_ok.mp h).1
  | transferFrom owner recipient amount =>
      exact executeTransferFrom_edited hmirrors (quiet_eq_ok.mp h).1
  | sendFrom owner contract amount text =>
      obtain ⟨_, hsend, -⟩ := notifying_eq_ok.mp h
      exact executeTransferFrom_edited hmirrors (executeSendFrom_ok hsend)
  | burnFrom owner amount =>
      exact executeBurnFrom_edited hmirrors (quiet_eq_ok.mp h).1
  | mint recipient amount =>
      exact (executeMint_grants (quiet_eq_ok.mp h).1).edited
  | addMinter newMinter =>
      have hadd := (quiet_eq_ok.mp h).1
      simp only [executeAddMinter, bind_eq_ok, pure_eq_ok] at hadd
      obtain ⟨_, -, _, -, rfl⟩ := hadd
      exact ⟨.keep, rfl, rfl⟩
  | removeMinter minter =>
      have hremove := (quiet_eq_ok.mp h).1
      simp only [executeRemoveMinter, bind_eq_ok, pure_eq_ok] at hremove
      obtain ⟨_, -, rfl⟩ := hremove
      exact ⟨.keep, rfl, rfl⟩
  | transferAdmin newAdmin =>
      have htransfer := (quiet_eq_ok.mp h).1
      simp only [executeTransferAdmin, bind_eq_ok, pure_eq_ok] at htransfer
      obtain ⟨_, -, _, -, rfl⟩ := htransfer
      exact ⟨.keep, rfl, rfl⟩

/-- The migration finds every allowance in the second index already. -/
theorem migrate_eq_self {older : Result Bool} {data : token.allowances.Entries}
    (hmirrors : token.allowances.Mirrors token.allowancesSpender)
    (h : migrate token older data = .ok token') : token' = token := by
  have hsame : token.allowancesSpender.saveAll (data.list.map fun entry =>
      ((entry.1.2, entry.1.1), entry.2)) = token.allowancesSpender := by
    refine Map.saveAll_eq_self fun turned hturned => ?_
    obtain ⟨⟨⟨owner, spender⟩, grant⟩, hentry, rfl⟩ :=
      List.mem_map.mp hturned
    rw [← hmirrors]
    exact (data.complete _ grant).mp hentry
  simp only [migrate, hsame, bind_eq_ok] at h
  obtain ⟨older, -, h⟩ := h
  split at h <;> cases h <;> rfl

theorem Mirrored.edited (hinv : Mirrored token) (h : Edited token token') :
    Mirrored token' := by
  obtain ⟨edit, howner, hspender⟩ := h
  constructor
  · rw [howner, hspender]
    exact hinv.mirrors.edit edit
  · rw [howner]
    exact Map.stored_edit hinv.finite edit

theorem mirrored_instantiate {msg : InstantiateMsg}
    (h : instantiate chain msg = .ok token) : Mirrored token := by
  simp only [instantiate, bind_eq_ok, pure_eq_ok, Prod.exists] at h
  obtain ⟨_, -, _, -, _, _, -, _, -, _, -, rfl⟩ := h
  exact ⟨fun _ _ => rfl, by simp [Map.stored, Map.empty]⟩

theorem mirrored_step (hinv : Mirrored token) (h : Step token token') :
    Mirrored token' := by
  cases h with
  | call call =>
      rcases token.deliver_cases call with heq | ⟨_, hcall⟩
      · rwa [heq]
      · exact hinv.edited (execute_edited hinv.mirrors hcall)
  | migrate h => rwa [migrate_eq_self hinv.mirrors h]

theorem mirrored_run (hinv : Mirrored token)
    (h : Relation.ReflTransGen Step token token') : Mirrored token' := by
  induction h with
  | refl => exact hinv
  | tail _ hstep ih => exact mirrored_step ih hstep

theorem run_of_exec {calls : List Call}
    (h : Transition.exec Token.step token calls = some token') :
    Relation.ReflTransGen Step token token' := by
  induction calls generalizing token with
  | nil =>
      cases h
      exact .refl
  | cons call rest ih =>
      obtain ⟨next, hstep, hrest⟩ := Transition.exec_cons_eq_some.mp h
      cases hstep
      exact .head (.call token call) (ih hrest)

end

/-- In every state that any messages and migrations lead to, the two indexes
hold the same allowances, the storage can be walked under every address, and
for any two addresses a page of the owner reports a grant exactly when a page
of the spender does. -/
theorem listings_agree {chain : Chain} {msg : InstantiateMsg}
    {token₀ token : Token} (hstart : instantiate chain msg = .ok token₀)
    (hrun : Relation.ReflTransGen Step token₀ token) :
    (∀ owner spender, token.allowances (owner, spender) =
      token.allowancesSpender (spender, owner)) ∧
    Nonempty (∀ addr, (token.allowances.under addr).Range) ∧
    Nonempty (∀ addr, (token.allowancesSpender.under addr).Range) ∧
    ∀ (chain : Chain)
      (ownerRanges : ∀ addr, (token.allowances.under addr).Range)
      (spenderRanges : ∀ addr, (token.allowancesSpender.under addr).Range)
      (owner spender : String) (grant : AllowanceResponse),
      chain.addrValidate owner = true → chain.addrValidate spender = true →
      (OwnerReports token chain ownerRanges owner spender grant ↔
        SpenderReports token chain spenderRanges owner spender grant) := by
  have hinv := mirrored_run (mirrored_instantiate hstart) hrun
  have hspender := hinv.mirrors.stored_finite hinv.finite
  refine ⟨hinv.mirrors, ⟨fun addr => ?_⟩, ⟨fun addr => ?_⟩, ?_⟩
  · exact (Map.exists_range (Map.stored_under hinv.finite addr)).some
  · exact (Map.exists_range (Map.stored_under hspender addr)).some
  · intro chain ownerRanges spenderRanges owner spender grant howner hvalid
    rw [ownerReports_iff howner, spenderReports_iff hvalid, hinv.mirrors]

/-- A token whose allowances are rebuilt after some grants and draws. -/
theorem listings_agree_sample :
    ∃ token₀ token, instantiate Sample.chain Sample.setup = .ok token₀ ∧
      Relation.ReflTransGen Step token₀ token ∧
      token.allowances ("ann", "ben") = some ⟨15, .atHeight 20⟩ ∧
      token.allowancesSpender ("ben", "ann") = some ⟨15, .atHeight 20⟩ := by
  have hcalls : ((instantiate Sample.chain Sample.setup).toOption.bind
      fun token => Transition.exec Token.step token Sample.grants).map
        (fun token => token.allowances ("ann", "ben")) =
      some (some ⟨15, .atHeight 20⟩) := by
    decide +kernel
  obtain ⟨token, hcalls, hgrant⟩ := Option.map_eq_some_iff.mp hcalls
  obtain ⟨token₀, hstart, hcalls⟩ := Option.bind_eq_some_iff.mp hcalls
  have hstart := toOption_eq_some.mp hstart
  have hinv := mirrored_run (mirrored_instantiate hstart) (run_of_exec hcalls)
  obtain ⟨data⟩ := Map.exists_entries hinv.finite
  have hmigrate : Step token _ := @Step.migrate token _ (.ok true) data rfl
  have hrun := (run_of_exec hcalls).tail hmigrate
  refine ⟨token₀, _, hstart, hrun, hgrant, ?_⟩
  exact ((listings_agree hstart hrun).1 "ann" "ben").symm.trans hgrant

end NeutronContracts.LsdToken
