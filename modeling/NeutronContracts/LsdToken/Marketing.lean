/-
The marketing information and the logo of the token, and the whole contract
with them: no other message reads or writes what they do.
-/
import NeutronContracts.LsdToken.Ledger

namespace NeutronContracts.LsdToken

open Fallible

/-- The errors of the messages below. -/
inductive MarketingError
  | std
  | unauthorized
  | logoTooBig
  | invalidXmlPreamble
  | invalidPngHeader
deriving DecidableEq, Repr

abbrev MarketingResult := Except MarketingError

inductive EmbeddedLogo
  | svg (data : List UInt8)
  | png (data : List UInt8)
deriving DecidableEq, Repr

inductive Logo
  | url (url : String)
  | embedded (logo : EmbeddedLogo)
deriving DecidableEq, Repr

inductive LogoInfo
  | url (url : String)
  | embedded
deriving DecidableEq, Repr

structure MarketingInfoResponse where
  project : Option String
  description : Option String
  logo : Option LogoInfo
  marketing : Option String
deriving DecidableEq, Repr

/-- `MARKETING_INFO` and `LOGO`. -/
structure Marketing where
  info : Option MarketingInfoResponse
  logo : Option Logo
deriving DecidableEq, Repr

/-! ### Logos -/

def logoSizeCap : Nat := 5 * 1024

/-- A list up to the first separator, which is included. -/
def upTo {α : Type} [DecidableEq α] (sep : α) : List α → List α
  | [] => []
  | c :: rest => if c = sep then [c] else c :: upTo sep rest

/-- The first piece of `split_inclusive`. -/
def firstInclusive {α : Type} [DecidableEq α] (sep : α) (data : List α) :
    Option (List α) :=
  if data.isEmpty then none else some (upTo sep data)

/-- `<?xml ` -/
def xmlPrefix : List UInt8 := [60, 63, 120, 109, 108, 32]

/-- `?>` -/
def xmlPostfix : List UInt8 := [63, 62]

def verifyXmlPreamble (data : List UInt8) : MarketingResult Unit := do
  let preamble ← orError (firstInclusive 62 data) .invalidXmlPreamble
  rejectIf (¬ (xmlPrefix <+: preamble ∧ xmlPostfix <:+ preamble))
    .invalidXmlPreamble

def verifyXmlLogo (logo : List UInt8) : MarketingResult Unit := do
  verifyXmlPreamble logo
  rejectIf (logoSizeCap < logo.length) .logoTooBig

def pngHeader : List UInt8 := [0x89, 80, 78, 71, 0x0d, 0x0a, 0x1a, 0x0a]

def verifyPngLogo (logo : List UInt8) : MarketingResult Unit := do
  rejectIf (logoSizeCap < logo.length) .logoTooBig
  rejectIf (¬ pngHeader <+: logo) .invalidPngHeader

def verifyLogo : Logo → MarketingResult Unit
  | .embedded (.svg logo) => verifyXmlLogo logo
  | .embedded (.png logo) => verifyPngLogo logo
  | .url _ => return ()

/-- What the marketing information says of a logo. -/
def Logo.info : Logo → LogoInfo
  | .url link => .url link
  | .embedded _ => .embedded

/-! ### Messages -/

/-- The characters that `trim` removes. -/
def isWhitespace (c : Char) : Bool :=
  (decide (9 ≤ c.toNat) && decide (c.toNat ≤ 13)) ||
    (decide (0x2000 ≤ c.toNat) && decide (c.toNat ≤ 0x200a)) ||
    [0x20, 0x85, 0xa0, 0x1680, 0x2028, 0x2029, 0x202f, 0x205f,
      0x3000].contains c.toNat

/-- `text.trim().is_empty()` -/
def isBlank (text : String) : Bool := text.toList.all isWhitespace

structure InstantiateMarketingInfo where
  project : Option String
  description : Option String
  marketing : Option String
  logo : Option Logo

/-- `addr_validate` where an error is passed on. -/
def validAddr (chain : Chain) (addr : String) : MarketingResult String :=
  if chain.addrValidate addr then .ok addr else .error .std

/-- The logo of an instantiate message, when there is one, is checked. -/
def verifyGiven : Option Logo → MarketingResult Unit
  | some logo => verifyLogo logo
  | none => return ()

def validAccount (chain : Chain) :
    Option String → MarketingResult (Option String)
  | some addr => some <$> validAddr chain addr
  | none => return none

def instantiateMarketing (chain : Chain) :
    Option InstantiateMarketingInfo → MarketingResult Marketing
  | none => return ⟨none, none⟩
  | some marketing => do
      verifyGiven marketing.logo
      let account ← validAccount chain marketing.marketing
      return {
        info := some
          { project := marketing.project
            description := marketing.description
            marketing := account
            logo := marketing.logo.map Logo.info }
        logo := marketing.logo }

/-- The account that may change the marketing information. -/
def Marketing.holder (m : Marketing) : Option String :=
  m.info.bind (·.marketing)

/-- The stored information, for the account that may change it. -/
def heldInfo (m : Marketing) (sender : String) :
    MarketingResult MarketingInfoResponse := do
  let info ← orError m.info .unauthorized
  let account ← orError info.marketing .unauthorized
  rejectIf (account ≠ sender) .unauthorized
  return info

/-- A text of the information after an update; a blank one removes it. -/
def updatedText (current : Option String) : Option String → Option String
  | some text => if isBlank text then none else some text
  | none => current

def updatedAccount (chain : Chain) (current : Option String) :
    Option String → MarketingResult (Option String)
  | some addr =>
      if isBlank addr then return none
      else some <$> validAddr chain addr
  | none => return current

def executeUpdateMarketing (m : Marketing) (chain : Chain) (sender : String)
    (project description marketing : Option String) :
    MarketingResult Marketing := do
  let info ← heldInfo m sender
  let account ← updatedAccount chain info.marketing marketing
  let info : MarketingInfoResponse :=
    { info with
      project := updatedText info.project project
      description := updatedText info.description description
      marketing := account }
  if info.project = none ∧ info.description = none ∧ info.marketing = none ∧
      info.logo = none then
    return { m with info := none }
  else
    return { m with info := some info }

/-- The logo is checked before the sender. -/
def executeUploadLogo (m : Marketing) (sender : String) (logo : Logo) :
    MarketingResult Marketing := do
  let _ ← orError m.info .unauthorized
  verifyLogo logo
  let info ← heldInfo m sender
  return {
    info := some { info with logo := some logo.info }
    logo := some logo }

/-! ### Queries -/

def queryMarketingInfo (m : Marketing) : MarketingInfoResponse :=
  m.info.getD ⟨none, none, none, none⟩

structure DownloadLogoResponse where
  mimeType : String
  data : List UInt8
deriving DecidableEq, Repr

def queryDownloadLogo (m : Marketing) :
    MarketingResult DownloadLogoResponse := do
  let logo ← orError m.logo .std
  match logo with
  | .embedded (.svg logo) => return ⟨"image/svg+xml", logo⟩
  | .embedded (.png logo) => return ⟨"image/png", logo⟩
  | .url _ => throw .std

/-! ### The whole contract -/

/-- The storage of a token with its marketing information. -/
structure Contract where
  token : Token
  marketing : Marketing

/-- All messages of the contract. -/
inductive ContractMsg
  | token (msg : ExecuteMsg)
  | updateMarketing (project description marketing : Option String)
  | uploadLogo (logo : Logo)

structure ContractCall where
  chain : Chain
  sender : String
  msg : ContractMsg

/-- The storage after a message; one that fails is reverted. -/
def Contract.deliver (c : Contract) (call : ContractCall) : Contract :=
  match call.msg with
  | .token msg =>
      { c with token := c.token.deliver ⟨call.chain, call.sender, msg⟩ }
  | .updateMarketing project description marketing =>
      match executeUpdateMarketing c.marketing call.chain call.sender project
          description marketing with
      | .ok marketing => { c with marketing := marketing }
      | .error _ => c
  | .uploadLogo logo =>
      match executeUploadLogo c.marketing call.sender logo with
      | .ok marketing => { c with marketing := marketing }
      | .error _ => c

def Contract.step (c : Contract) (call : ContractCall) : Option Contract :=
  some (c.deliver call)

/-- The contract after it has been instantiated. -/
structure Contract.Genesis (chain : Chain) (msg : InstantiateMsg)
    (marketing : Option InstantiateMarketingInfo) (c : Contract) : Prop where
  token : instantiate chain msg = .ok c.token
  marketing : instantiateMarketing chain marketing = .ok c.marketing

end NeutronContracts.LsdToken
