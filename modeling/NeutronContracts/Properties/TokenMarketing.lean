/-
The marketing information of the token: which logos are accepted, that the
information agrees with the logo that is stored, and who may change either.
-/
import NeutronContracts.LsdToken.Marketing
import NeutronContracts.Properties.TokenSupply

namespace NeutronContracts.LsdToken

open Fallible Transition

/-! ### Well-formed logos -/

/-- A logo as the contract documents it: at most 5KB, a document that begins
with an XML preamble, or one that begins with the header of a PNG file. -/
def Logo.WellFormed : Logo → Prop
  | .url _ => True
  | .embedded (.svg data) => data.length ≤ logoSizeCap ∧
      ∃ attributes rest, 62 ∉ attributes ∧
        data = xmlPrefix ++ attributes ++ xmlPostfix ++ rest
  | .embedded (.png data) =>
      data.length ≤ logoSizeCap ∧ ∃ rest, data = pngHeader ++ rest

section

variable {α : Type} [DecidableEq α] {sep : α} {data body : List α}

/-- A piece that ends with the separator goes up to the first one. -/
theorem upTo_eq_concat_iff :
    upTo sep data = body ++ [sep] ↔
      sep ∉ body ∧ ∃ rest, data = body ++ sep :: rest := by
  induction data generalizing body with
  | nil =>
      simp only [upTo, List.nil_eq_append_iff, List.cons_ne_nil, and_false,
        false_iff, not_and, not_exists]
      intro _ rest h
      simp at h
  | cons c data ih =>
      rw [upTo]
      cases body with
      | nil =>
          by_cases hc : c = sep
          · simp [hc]
          · simp [hc]
      | cons d body =>
          by_cases hc : c = sep
          · subst hc
            simp only [if_true, List.cons_append, List.cons.injEq,
              List.mem_cons, not_or]
            constructor
            · rintro ⟨-, hnil⟩
              simp at hnil
            · rintro ⟨⟨hne, -⟩, _, heq, -⟩
              exact absurd heq hne
          · simp only [hc, if_false, List.cons_append, List.cons.injEq, ih,
              List.mem_cons, not_or]
            constructor
            · rintro ⟨rfl, hbody, rest, rfl⟩
              exact ⟨⟨Ne.symm hc, hbody⟩, rest, rfl, rfl⟩
            · rintro ⟨⟨-, hbody⟩, rest, rfl, rfl⟩
              exact ⟨rfl, hbody, rest, rfl⟩

end

section

variable {data : List UInt8} {logo : Logo}

/-- What comes before the end of a preamble begins with the prefix as soon as
the whole does. -/
theorem xmlPrefix_prefix_iff {body : List UInt8} :
    xmlPrefix <+: body ++ xmlPostfix ↔ xmlPrefix <+: body := by
  constructor
  · rintro ⟨rest, hrest⟩
    rcases List.append_eq_append_iff.mp hrest with ⟨more, hbody, -⟩ |
      ⟨more, hprefix, hend⟩
    · exact ⟨more, hbody.symm⟩
    · -- the prefix does not end with a character of the end
      rcases List.eq_nil_or_concat more with rfl | ⟨front, last, rfl⟩
      · exact ⟨[], by simpa using hprefix⟩
      · have hlast := congrArg List.getLast? hprefix
        have hmem : last ∈ xmlPostfix := by simp [hend]
        simp only [xmlPrefix, List.concat_eq_append, ← List.append_assoc,
          List.getLast?_concat] at hlast
        obtain rfl : 32 = last := Option.some.inj hlast
        exact absurd hmem (by decide)
  · intro h
    exact h.trans (List.prefix_append _ _)

theorem verifyXmlPreamble_iff :
    verifyXmlPreamble data = .ok () ↔ ∃ attributes rest, 62 ∉ attributes ∧
      data = xmlPrefix ++ attributes ++ xmlPostfix ++ rest := by
  simp only [verifyXmlPreamble, bind_eq_ok, orError_eq_ok, rejectIf_eq_ok,
    not_not, firstInclusive, Option.ite_none_left_eq_some, Option.some.injEq,
    List.isEmpty_iff]
  constructor
  · rintro ⟨piece, ⟨-, hpiece⟩, hprefix, body, rfl⟩
    rw [xmlPrefix_prefix_iff] at hprefix
    obtain ⟨attributes, rfl⟩ := hprefix
    have hconcat : xmlPrefix ++ attributes ++ xmlPostfix =
        (xmlPrefix ++ attributes ++ [63]) ++ [62] := by simp [xmlPostfix]
    rw [hconcat, upTo_eq_concat_iff] at hpiece
    obtain ⟨hfirst, rest, rfl⟩ := hpiece
    refine ⟨attributes, rest, fun hmem => hfirst ?_, ?_⟩
    · simp [hmem]
    · simp [xmlPostfix]
  · rintro ⟨attributes, rest, hfirst, rfl⟩
    refine ⟨xmlPrefix ++ attributes ++ xmlPostfix, ⟨by simp [xmlPrefix], ?_⟩,
      xmlPrefix_prefix_iff.mpr (List.prefix_append _ _),
      List.suffix_append _ _⟩
    have hconcat : xmlPrefix ++ attributes ++ xmlPostfix =
        (xmlPrefix ++ attributes ++ [63]) ++ [62] := by simp [xmlPostfix]
    rw [hconcat, upTo_eq_concat_iff]
    refine ⟨?_, rest, by simp⟩
    simp [xmlPrefix, hfirst]

/-- Exactly the well-formed logos are accepted. -/
theorem verifyLogo_iff : verifyLogo logo = .ok () ↔ logo.WellFormed := by
  cases logo with
  | url url => simp [verifyLogo, Logo.WellFormed]
  | embedded logo =>
      cases logo with
      | svg data =>
          simp only [verifyLogo, verifyXmlLogo, bind_eq_ok, rejectIf_eq_ok,
            Nat.not_lt, Logo.WellFormed]
          rw [← verifyXmlPreamble_iff]
          constructor
          · rintro ⟨_, hpreamble, hlength⟩
            exact ⟨hlength, hpreamble⟩
          · rintro ⟨hlength, hpreamble⟩
            exact ⟨(), hpreamble, hlength⟩
      | png data =>
          simp only [verifyLogo, verifyPngLogo, bind_eq_ok, rejectIf_eq_ok,
            Nat.not_lt, not_not, Logo.WellFormed]
          constructor
          · rintro ⟨_, hlength, rest, hrest⟩
            exact ⟨hlength, rest, hrest.symm⟩
          · rintro ⟨hlength, rest, hrest⟩
            exact ⟨(), hlength, rest, hrest.symm⟩

end

/-! ### The stored logo -/

/-- The information names the logo that is stored, and that is well formed. -/
structure Marketing.Sound (m : Marketing) : Prop where
  named : m.info.bind (·.logo) = m.logo.map Logo.info
  wellFormed : ∀ logo ∈ m.logo, logo.WellFormed

section

variable {m m' : Marketing} {chain : Chain} {sender : String} {logo : Logo}
  {info : MarketingInfoResponse} {project description marketing : Option String}
  {c last : Contract} {call : ContractCall} {calls : List ContractCall}

theorem sound_instantiate {given : Option InstantiateMarketingInfo}
    (h : instantiateMarketing chain given = .ok m) : m.Sound := by
  cases given with
  | none =>
      cases pure_eq_ok.mp h
      exact ⟨rfl, by simp⟩
  | some given =>
      simp only [instantiateMarketing, bind_eq_ok, pure_eq_ok] at h
      obtain ⟨_, hlogo, account, -, rfl⟩ := h
      refine ⟨rfl, fun logo hmem => ?_⟩
      have hgiven : given.logo = some logo := hmem
      rw [hgiven] at hlogo
      exact verifyLogo_iff.mp hlogo

theorem heldInfo_eq_ok :
    heldInfo m sender = .ok info ↔
      m.info = some info ∧ info.marketing = some sender := by
  simp only [heldInfo, bind_eq_ok, orError_eq_ok, rejectIf_eq_ok, not_not,
    pure_eq_ok]
  constructor
  · rintro ⟨_, hinfo, _, haccount, _, rfl, rfl⟩
    exact ⟨hinfo, haccount⟩
  · rintro ⟨hinfo, haccount⟩
    exact ⟨info, hinfo, sender, haccount, (), rfl, rfl⟩

/-- An update comes from the account of the information, and it leaves the
logo alone; the information goes only with its logo. -/
theorem executeUpdateMarketing_ok
    (h : executeUpdateMarketing m chain sender project description marketing =
      .ok m') :
    m.holder = some sender ∧ m'.logo = m.logo ∧
      m'.info.bind (·.logo) = m.info.bind (·.logo) := by
  simp only [executeUpdateMarketing, bind_eq_ok, heldInfo_eq_ok] at h
  obtain ⟨info, ⟨hinfo, haccount⟩, account, -, h⟩ := h
  have hholder : m.holder = some sender := by
    rw [Marketing.holder, hinfo]
    exact haccount
  split at h
  · next hempty =>
      cases h
      refine ⟨hholder, rfl, ?_⟩
      rw [hinfo]
      exact hempty.2.2.2.symm
  · cases h
    refine ⟨hholder, rfl, ?_⟩
    rw [hinfo]
    rfl

theorem executeUploadLogo_ok (h : executeUploadLogo m sender logo = .ok m') :
    m.holder = some sender ∧ logo.WellFormed ∧ m'.logo = some logo ∧
      m'.info.bind (·.logo) = some logo.info := by
  simp only [executeUploadLogo, bind_eq_ok, heldInfo_eq_ok, pure_eq_ok] at h
  obtain ⟨_, -, _, hlogo, info, ⟨hinfo, haccount⟩, rfl⟩ := h
  refine ⟨?_, verifyLogo_iff.mp hlogo, rfl, rfl⟩
  rw [Marketing.holder, hinfo]
  exact haccount

/-- What a message does to the marketing information: nothing, or its account
has sent the message and it stays sound. -/
theorem Contract.deliver_cases (c : Contract) (call : ContractCall) :
    (c.deliver call).marketing = c.marketing ∨
      c.marketing.holder = some call.sender ∧
        (c.marketing.Sound → (c.deliver call).marketing.Sound) := by
  unfold Contract.deliver
  cases call.msg with
  | token msg => exact .inl rfl
  | updateMarketing project description marketing =>
      simp only
      split
      · next m hupdate =>
          obtain ⟨hholder, hlogo, hinfo⟩ := executeUpdateMarketing_ok hupdate
          refine .inr ⟨hholder, fun hsound => ⟨?_, ?_⟩⟩
          · rw [hinfo, hlogo]
            exact hsound.named
          · rw [hlogo]
            exact hsound.wellFormed
      · exact .inl rfl
  | uploadLogo logo =>
      simp only
      split
      · next m hupload =>
          obtain ⟨hholder, hvalid, hlogo, hinfo⟩ := executeUploadLogo_ok hupload
          refine .inr ⟨hholder, fun _ => ⟨?_, ?_⟩⟩
          · rw [hinfo, hlogo]
            rfl
          · rw [hlogo]
            intro other hother
            cases hother
            exact hvalid
      · exact .inl rfl

theorem queryDownloadLogo_eq_ok {res : DownloadLogoResponse} :
    queryDownloadLogo m = .ok res ↔
      m.logo = some (.embedded (.svg res.data)) ∧
          res.mimeType = "image/svg+xml" ∨
        m.logo = some (.embedded (.png res.data)) ∧
          res.mimeType = "image/png" := by
  obtain ⟨mimeType, data⟩ := res
  simp only [queryDownloadLogo, bind_eq_ok, orError_eq_ok]
  cases hlogo : m.logo with
  | none => simp
  | some logo =>
      cases logo with
      | url link => simp [throw, throwThe, MonadExceptOf.throw]
      | embedded logo =>
          cases logo with
          | svg stored => simp [eq_comm, and_comm, pure, Except.pure]
          | png stored => simp [eq_comm, and_comm, pure, Except.pure]

theorem sound_run {chain : Chain} {msg : InstantiateMsg}
    {given : Option InstantiateMarketingInfo}
    (hgenesis : c.Genesis chain msg given)
    (hrun : exec Contract.step c calls = some last) : last.marketing.Sound :=
  exec_invariant (fun c => c.marketing.Sound)
    (fun c call next hsound hstep => by
      obtain rfl := Option.some.inj hstep
      rcases c.deliver_cases call with hsame | ⟨-, hkept⟩
      · rwa [hsame]
      · exact hkept hsound)
    (sound_instantiate hgenesis.marketing) hrun

/-- In every state that any messages lead to, the information names the logo
that is stored, which is well formed, and the logo can be downloaded exactly
when the information says that it is embedded. -/
theorem logo_well_formed {chain : Chain} {msg : InstantiateMsg}
    {given : Option InstantiateMarketingInfo}
    (hgenesis : c.Genesis chain msg given)
    (hrun : exec Contract.step c calls = some last) :
    (queryMarketingInfo last.marketing).logo =
        last.marketing.logo.map Logo.info ∧
      (∀ logo, last.marketing.logo = some logo → logo.WellFormed) ∧
      ((∃ res, queryDownloadLogo last.marketing = .ok res) ↔
        (queryMarketingInfo last.marketing).logo = some .embedded) ∧
      ∀ res, queryDownloadLogo last.marketing = .ok res →
        res.data.length ≤ logoSizeCap := by
  have hsound := sound_run hgenesis hrun
  have hnamed : (queryMarketingInfo last.marketing).logo =
      last.marketing.logo.map Logo.info := by
    rw [← hsound.named, queryMarketingInfo]
    cases last.marketing.info <;> rfl
  refine ⟨hnamed, hsound.wellFormed, ?_, fun res hres => ?_⟩
  · rw [hnamed, Option.map_eq_some_iff]
    constructor
    · rintro ⟨res, hres⟩
      rcases queryDownloadLogo_eq_ok.mp hres with ⟨hlogo, -⟩ | ⟨hlogo, -⟩
      · exact ⟨_, hlogo, rfl⟩
      · exact ⟨_, hlogo, rfl⟩
    · rintro ⟨logo, hlogo, hinfo⟩
      cases logo with
      | url link => cases hinfo
      | embedded logo =>
          cases logo with
          | svg data =>
              exact ⟨⟨_, data⟩, queryDownloadLogo_eq_ok.mpr (.inl ⟨hlogo, rfl⟩)⟩
          | png data =>
              exact ⟨⟨_, data⟩, queryDownloadLogo_eq_ok.mpr (.inr ⟨hlogo, rfl⟩)⟩
  · rcases queryDownloadLogo_eq_ok.mp hres with ⟨hlogo, -⟩ | ⟨hlogo, -⟩
    · exact (hsound.wellFormed _ hlogo).1
    · exact (hsound.wellFormed _ hlogo).1

/-- The messages that the token without marketing knows. -/
def ContractCall.tokenCall (call : ContractCall) : Option Call :=
  match call.msg with
  | .token msg => some ⟨call.chain, call.sender, msg⟩
  | _ => none

theorem Contract.deliver_token (c : Contract) (call : ContractCall) :
    (c.deliver call).token =
      (call.tokenCall.map c.token.deliver).getD c.token := by
  unfold Contract.deliver ContractCall.tokenCall
  cases call.msg with
  | token msg => rfl
  | updateMarketing project description marketing =>
      dsimp only
      split <;> rfl
  | uploadLogo logo =>
      dsimp only
      split <;> rfl

/-- The tokens do not depend on the marketing information, and as long as its
account sends nothing, the marketing information does not change; without an
account it never does. -/
theorem marketing_kept (hrun : exec Contract.step c calls = some last) :
    exec Token.step c.token (calls.filterMap ContractCall.tokenCall) =
        some last.token ∧
      ((∀ call ∈ calls, c.marketing.holder ≠ some call.sender) →
        last.marketing = c.marketing) := by
  induction calls generalizing c with
  | nil =>
      obtain rfl : c = last := Option.some.inj hrun
      exact ⟨rfl, fun _ => rfl⟩
  | cons call calls ih =>
      obtain ⟨next, hstep, hrest⟩ := exec_cons_eq_some.mp hrun
      obtain rfl := Option.some.inj hstep
      obtain ⟨htoken, hmarketing⟩ := ih hrest
      refine ⟨?_, fun hothers => ?_⟩
      · rw [← htoken, c.deliver_token call, List.filterMap_cons]
        cases call.tokenCall with
        | none => rfl
        | some tokenCall => rfl
      · rw [List.forall_mem_cons] at hothers
        rcases c.deliver_cases call with hsame | ⟨hholder, -⟩
        · rw [hmarketing (hsame ▸ hothers.2), hsame]
        · exact absurd hholder hothers.1

end

/-! ### A token with a logo -/

namespace Sample

/-- The smallest document that is accepted. -/
def emptySvg : Logo := .embedded (.svg [60, 63, 120, 109, 108, 32, 63, 62])

def branded : InstantiateMarketingInfo :=
  ⟨some "Liquid", none, some "brand", some (.url "logo.png")⟩

def contract (token : Token) : Contract :=
  ⟨token, ⟨some ⟨some "Liquid", none, some (.url "logo.png"), some "brand"⟩,
    some (.url "logo.png")⟩⟩

/-- The logo is uploaded, and the account gives its right away. -/
def brandCalls : List ContractCall :=
  [⟨chain, "ann", .uploadLogo emptySvg⟩,
    ⟨chain, "brand", .uploadLogo emptySvg⟩,
    ⟨chain, "ann", .token (.transfer "ben" 20)⟩,
    ⟨chain, "brand", .updateMarketing none none (some " ")⟩]

end Sample

theorem logo_well_formed_sample :
    ∃ token last, (Sample.contract token).Genesis Sample.chain Sample.setup
        (some Sample.branded) ∧
      exec Contract.step (Sample.contract token) Sample.brandCalls =
        some last ∧
      (queryMarketingInfo last.marketing).logo = some .embedded ∧
      ∃ res, queryDownloadLogo last.marketing = .ok res := by
  have hrun : ((instantiate Sample.chain Sample.setup).toOption.bind
      fun token => exec Contract.step (Sample.contract token)
        Sample.brandCalls).map (fun last =>
          (queryMarketingInfo last.marketing).logo) =
            some (some .embedded) := by
    decide +kernel
  obtain ⟨last, hrun, hlogo⟩ := Option.map_eq_some_iff.mp hrun
  obtain ⟨token, hstart, hrun⟩ := Option.bind_eq_some_iff.mp hrun
  have hgenesis : (Sample.contract token).Genesis Sample.chain Sample.setup
      (some Sample.branded) := ⟨toOption_eq_some.mp hstart, rfl⟩
  exact ⟨token, last, hgenesis, hrun, hlogo,
    (logo_well_formed hgenesis hrun).2.2.1.mpr hlogo⟩

theorem marketing_kept_sample :
    ∃ token middle last,
      exec Contract.step (Sample.contract token) Sample.brandCalls =
        some middle ∧
      exec Contract.step middle Sample.brandCalls = some last ∧
      last.marketing = middle.marketing := by
  have hrun : ((instantiate Sample.chain Sample.setup).toOption.bind
      fun token => (exec Contract.step (Sample.contract token)
        Sample.brandCalls).bind fun middle =>
          (exec Contract.step middle Sample.brandCalls).map fun _ =>
            (token.info.decimals, middle.marketing.holder)) =
              some (6, none) := by
    decide +kernel
  obtain ⟨token, -, hrun⟩ := Option.bind_eq_some_iff.mp hrun
  obtain ⟨middle, hfirst, hrun⟩ := Option.bind_eq_some_iff.mp hrun
  obtain ⟨last, hlater, hholder⟩ := Option.map_eq_some_iff.mp hrun
  refine ⟨token, middle, last, hfirst, hlater,
    (marketing_kept hlater).2 fun call _ => ?_⟩
  rw [(Prod.mk.inj hholder).2]
  exact Option.some_ne_none call.sender |>.symm

end NeutronContracts.LsdToken
