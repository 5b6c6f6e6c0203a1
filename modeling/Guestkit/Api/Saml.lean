import Guestkit.Lib.Base64
import Guestkit.Lib.Hoare
import Guestkit.Lib.Text

/-! Login with SAML: how the response of the identity provider is checked and read.  The signature
is looked for as a text and covers only the element `SignedInfo`; who logs in is read from all
elements of the document.  Nothing connects the two. -/

namespace Guestkit.Api

open Lib Lib.Text

structure IdentitySettings where
  defaultRole : String
  adminRoles : List String
  adminEmails : List String

structure AuthUserClaims where
  sub : String
  email : Option String
  name : Option String
  role : String
  provider : String
  jti : Option String
  deriving DecidableEq

def roleAdmin : String := "admin"

def resolveRole (identity : IdentitySettings) (email : Option String) (groups : List String) :
    String :=
  if email.any fun email => identity.adminEmails.any (eqIgnoreAsciiCase · email) then roleAdmin
  else if groups.any fun group => identity.adminRoles.any (eqIgnoreAsciiCase · group) then roleAdmin
  else if (trim identity.defaultRole).isEmpty then "operator"
  else identity.defaultRole

def emailFromClaims (email name : Option String) (sub : String) : Option String :=
  email <|> name.filter (contains · "@") <|> if contains sub "@" then some sub else none

/-- What the reader of `quick_xml` returns, with the local names of elements, the attributes that
can be read, and texts without their escapes.  An empty element is a start without an end. -/
inductive XmlEvent where
  | start (localName : String) (attributes : List (String × String))
  | text (text : String)
  | «end» (localName : String)
  | other

structure XmlEvents where
  events : List XmlEvent
  error : Option String

/-- What the response goes through outside the source: `base64`, `quick_xml`, `chrono` and OpenSSL.
`verifier` is a verifier that has been given the text; it may fail on a signature. -/
structure SamlCrates (Key : Type) where
  decode : String → Except String ByteArray
  readEvents : String → XmlEvents
  parseFromRfc3339 : String → Except String Int
  publicKey : String → Except String Key
  verifier : Key → String → Except String (ByteArray → Option Bool)

structure SamlAssertionUser where
  sub : String
  email : Option String
  name : Option String
  groups : List String
  deriving DecidableEq

structure Reading where
  inNameId : Bool := false
  inAttrValue : Bool := false
  currentAttr : String := ""
  sub : String := ""
  email : Option String := none
  name : Option String := none
  groups : List String := []
  notOnOrAfterValid : Bool := true

section Process

variable {Key : Type} (crates : SamlCrates Key) (std : StdText) (now : Int)

def findAttribute (suffix : String) (attributes : List (String × String)) : Option String :=
  (attributes.find? fun (key, _) => endsWith suffix key).map (·.2)

def readStart (localName : String) (attributes : List (String × String)) (s : Reading) : Reading :=
  if endsWith "NameID" localName then { s with inNameId := true }
  else if endsWith "Attribute" localName then
    { s with currentAttr := std.toLowercase ((findAttribute "Name" attributes).getD "") }
  else if endsWith "AttributeValue" localName then { s with inAttrValue := true }
  else if endsWith "Conditions" localName then
    match (findAttribute "NotOnOrAfter" attributes).map crates.parseFromRfc3339 with
    | some (.ok time) => { s with notOnOrAfterValid := time > now }
    | _ => s
  else s

def readText (text : String) (s : Reading) : Reading :=
  if s.inNameId && s.sub.isEmpty then { s with sub := trim text }
  else if s.inAttrValue then
    let val := trim text
    if contains s.currentAttr "mail" || contains s.currentAttr "email" then
      { s with email := s.email <|> some val }
    else if contains s.currentAttr "name" || contains s.currentAttr "displayname" then
      { s with name := s.name <|> some val }
    else if contains s.currentAttr "group" || contains s.currentAttr "role" then
      { s with groups := s.groups ++ [val] }
    else s
  else s

def readEnd (localName : String) (s : Reading) : Reading :=
  if endsWith "NameID" localName then { s with inNameId := false }
  else if endsWith "AttributeValue" localName then { s with inAttrValue := false }
  else if endsWith "Attribute" localName then { s with currentAttr := "" }
  else s

def readEvent (s : Reading) : XmlEvent → Reading
  | .start localName attributes => readStart crates std now localName attributes s
  | .text text => readText text s
  | .end localName => readEnd localName s
  | .other => s

def parseAssertionUser (xml : String) : Except String SamlAssertionUser := do
  let read := crates.readEvents xml
  let s := read.events.foldl (readEvent crates std now) {}
  match read.error with
  | some e => .error s!"SAML XML parse error: {e}"
  | none =>
    bailIf (!s.notOnOrAfterValid) "SAML assertion expired"
    bailIf s.sub.isEmpty "SAML assertion missing NameID"
    return { sub := s.sub, email := s.email, name := s.name, groups := s.groups }

def statusSuccess (xml : String) : Bool :=
  contains xml "StatusCode Value=\"urn:oasis:names:tc:SAML:2.0:status:Success\"" ||
    contains xml "StatusCode Value='urn:oasis:names:tc:SAML:2.0:status:Success'"

def fromFirst (pat : List Char) : List Char → Option (List Char)
  | [] => if pat.isEmpty then some [] else none
  | c :: cs => if pat.isPrefixOf (c :: cs) then some (c :: cs) else fromFirst pat cs

def upToFirst (pat : List Char) : List Char → Option (List Char)
  | [] => if pat.isEmpty then some [] else none
  | c :: cs => if pat.isPrefixOf (c :: cs) then some [] else (upToFirst pat cs).map (c :: ·)

def extractBetween (haystack startTag endTag : String) : Option String := do
  let afterStart ← fromFirst startTag.toList haystack.toList
  let contentRegion := (← fromFirst ['>'] afterStart).tail
  let content ← upToFirst endTag.toList contentRegion
  return trim (String.ofList content)

def signatureValue (xml : String) : Option String :=
  extractBetween xml "<ds:SignatureValue" "</ds:SignatureValue>" <|>
    extractBetween xml "<SignatureValue" "</SignatureValue>"

def signedInfo (xml : String) : Option String :=
  extractBetween xml "<ds:SignedInfo" "</ds:SignedInfo>" <|>
    extractBetween xml "<SignedInfo" "</SignedInfo>"

def verifySignature (xml certPem : String) : Except String Unit :=
  match signatureValue xml with
  | none => .error "SAML response missing SignatureValue"
  | some sigValue => do
    let sigBytes ← withContext "invalid SignatureValue base64"
      (crates.decode (replaceChars ['\n', ' ', '\t'] "" sigValue))
    match signedInfo xml with
    | none => .error "SAML response missing SignedInfo"
    | some signedInfo => do
      let canonical := s!"<SignedInfo>{signedInfo}</SignedInfo>"
      let key ← crates.publicKey certPem
      let verifier ← crates.verifier key canonical
      bailIf ((verifier sigBytes).getD false = false) "SAML signature verification failed"

def responseXml (samlResponse : String) : Except String String := do
  let response := trim samlResponse
  let decoded ← withContext "invalid SAMLResponse base64"
    (match crates.decode response with
      | .ok bytes => .ok bytes
      | .error _ => crates.decode (replaceChars ['\n'] "" response))
  match String.fromUTF8? decoded with
  | some xml => return xml
  | none => .error "SAMLResponse is not UTF-8"

def processAcsResponse (certificatePem : String) (identity : IdentitySettings)
    (samlResponse : String) : Except String AuthUserClaims := do
  let xml ← responseXml crates samlResponse
  bailIf (!statusSuccess xml) "SAML response status is not Success"
  bailIf (trim certificatePem).isEmpty "IdP certificate PEM is required for SAML login"
  verifySignature crates xml certificatePem
  let user ← parseAssertionUser crates std now xml
  return {
    sub := user.sub
    email := emailFromClaims user.email user.name user.sub
    name := user.name
    role := resolveRole identity user.email user.groups
    provider := "saml"
    jti := none }

end Process

section Bound

variable {Key : Type} (crates : SamlCrates Key) (std : StdText)

def SameSigned (response response' : String) : Prop :=
  ∃ xml xml', responseXml crates response = .ok xml ∧ responseXml crates response' = .ok xml' ∧
    signatureValue xml = signatureValue xml' ∧ signedInfo xml = signedInfo xml'

/-- Whatever is accepted with the same signed content gives the same claims. -/
def BoundBySignature (certificatePem : String) (identity : IdentitySettings)
    (response : String) : Prop :=
  ∀ response' now now' claims claims', SameSigned crates response response' →
    processAcsResponse crates std now certificatePem identity response = .ok claims →
    processAcsResponse crates std now' certificatePem identity response' = .ok claims' →
    claims = claims'

/-- The document with an element in front of all others, after a byte order mark. -/
def putFirst (element : List Char) (xml : String) : String :=
  match xml.toList with
  | '\uFEFF' :: rest => String.ofList ('\uFEFF' :: (element ++ rest))
  | rest => String.ofList (element ++ rest)

def nameIdElement (name : String) : List Char :=
  "<NameID>".toList ++ (name.toList ++ "</NameID>".toList)

def nameIdEvents (name : String) : List XmlEvent :=
  [.start "NameID" [], .text name, .end "NameID"]

/-- The reader goes through a document from its start: an element that comes first is read first,
and the rest as without it. -/
def ReadsInOrder (readEvents : String → XmlEvents) : Prop :=
  ∀ name xml, name ≠ "" → (∀ c ∈ name.toList, c.isAlphanum) →
    readEvents (putFirst (nameIdElement name) xml) =
      { readEvents xml with events := nameIdEvents name ++ (readEvents xml).events }

def Encodes (decode : String → Except String ByteArray) : Prop :=
  ∀ bytes, ∃ text, trim text = text ∧ decode text = .ok bytes

end Bound

section Proofs

variable {Key : Type} {crates : SamlCrates Key} {std : StdText} {now : Int}
variable {xml : String} {pat : List Char} {p : Char} {name : String} {certificatePem : String}
  {identity : IdentitySettings} {claims : AuthUserClaims}

theorem readEvent_sub {s : Reading} (h : s.sub.isEmpty = false) (event : XmlEvent) :
    (readEvent crates std now s event).sub = s.sub := by
  cases event with
  | start localName attributes =>
    change (readStart crates std now localName attributes s).sub = s.sub
    unfold readStart
    split_ifs
    · rfl
    · rfl
    · rfl
    · split <;> rfl
    · rfl
  | text text =>
    change (readText text s).sub = s.sub
    unfold readText
    rw [h, Bool.and_false]
    simp only [Bool.false_eq_true, if_false]
    split_ifs <;> rfl
  | «end» localName =>
    change (readEnd localName s).sub = s.sub
    unfold readEnd
    split_ifs <;> rfl
  | other => rfl

theorem foldl_readEvent_sub (events : List XmlEvent) {s : Reading} (h : s.sub.isEmpty = false) :
    (events.foldl (readEvent crates std now) s).sub = s.sub := by
  induction events generalizing s with
  | nil => rfl
  | cons event events ih =>
    have hsub : (readEvent crates std now s event).sub = s.sub := readEvent_sub h event
    rw [List.foldl_cons, ih (by rw [hsub]; exact h), hsub]

theorem readEvent_valid {s s' : Reading} (h : s.notOnOrAfterValid = s'.notOnOrAfterValid)
    (event : XmlEvent) : (readEvent crates std now s event).notOnOrAfterValid =
      (readEvent crates std now s' event).notOnOrAfterValid := by
  cases event with
  | start localName attributes =>
    change (readStart crates std now localName attributes s).notOnOrAfterValid =
      (readStart crates std now localName attributes s').notOnOrAfterValid
    unfold readStart
    split_ifs
    · exact h
    · exact h
    · exact h
    · split
      · rfl
      · exact h
    · exact h
  | text text =>
    have htext : ∀ s, (readText text s).notOnOrAfterValid = s.notOnOrAfterValid := by
      intro s
      unfold readText
      dsimp only
      split_ifs <;> rfl
    exact (htext s).trans (h.trans (htext s').symm)
  | «end» localName =>
    have hend : ∀ s, (readEnd localName s).notOnOrAfterValid = s.notOnOrAfterValid := by
      intro s
      unfold readEnd
      split_ifs <;> rfl
    exact (hend s).trans (h.trans (hend s').symm)
  | other => exact h

theorem foldl_readEvent_valid (events : List XmlEvent) {s s' : Reading}
    (h : s.notOnOrAfterValid = s'.notOnOrAfterValid) :
    (events.foldl (readEvent crates std now) s).notOnOrAfterValid =
      (events.foldl (readEvent crates std now) s').notOnOrAfterValid := by
  induction events generalizing s s' with
  | nil => exact h
  | cons event events ih => exact ih (readEvent_valid h event)

theorem parseAssertionUser_eq_ok {user : SamlAssertionUser} :
    parseAssertionUser crates std now xml = .ok user ↔
      let s := (crates.readEvents xml).events.foldl (readEvent crates std now) {}
      (crates.readEvents xml).error = none ∧ s.notOnOrAfterValid = true ∧ s.sub.isEmpty = false ∧
        user = { sub := s.sub, email := s.email, name := s.name, groups := s.groups } := by
  unfold parseAssertionUser
  dsimp only
  cases herror : (crates.readEvents xml).error with
  | some e => simp
  | none =>
    dsimp only
    constructor
    · intro h
      obtain ⟨_, hvalid, h⟩ := except_ok_bind_iff.mp h
      obtain ⟨_, hsub, h⟩ := except_ok_bind_iff.mp h
      refine ⟨rfl, ?_, ?_, (Except.ok.inj h).symm⟩
      · simpa using bailIf_eq_ok.mp hvalid
      · exact Bool.eq_false_iff.mpr (bailIf_eq_ok.mp hsub)
    · rintro ⟨-, hvalid, hsub, rfl⟩
      refine except_ok_bind_iff.mpr ⟨(), bailIf_eq_ok.mpr (by simp [hvalid]), ?_⟩
      exact except_ok_bind_iff.mpr ⟨(), bailIf_eq_ok.mpr (by rw [hsub]; exact nofun), rfl⟩

theorem foldl_nameId (name : String) :
    (nameIdEvents name).foldl (readEvent crates std now) {} = { sub := trim name } := by
  have hname : endsWith "NameID" "NameID" = true := by decide
  simp [nameIdEvents, readEvent, readStart, readText, readEnd, hname]

theorem parseAssertionUser_putFirst {xml name : String} {user : SamlAssertionUser}
    (hread : (crates.readEvents (putFirst (nameIdElement name) xml)) =
      { crates.readEvents xml with events := nameIdEvents name ++ (crates.readEvents xml).events })
    (htrim : trim name = name) (hname : name.isEmpty = false)
    (h : parseAssertionUser crates std now xml = .ok user) :
    ∃ user', parseAssertionUser crates std now (putFirst (nameIdElement name) xml) = .ok user' ∧
      user'.sub = name := by
  obtain ⟨herror, hvalid, -, -⟩ := parseAssertionUser_eq_ok.mp h
  have hfirst : (crates.readEvents (putFirst (nameIdElement name) xml)).events.foldl
      (readEvent crates std now) {} =
        (crates.readEvents xml).events.foldl (readEvent crates std now) { sub := name } := by
    rw [hread, List.foldl_append, foldl_nameId, htrim]
  have hsub : ((crates.readEvents xml).events.foldl (readEvent crates std now)
      { sub := name }).sub = name := foldl_readEvent_sub _ hname
  refine ⟨_, parseAssertionUser_eq_ok.mpr ⟨?_, ?_, ?_, rfl⟩, ?_⟩
  · rw [hread]
    exact herror
  · rw [hfirst]
    have hsame : ({ sub := name } : Reading).notOnOrAfterValid = ({} : Reading).notOnOrAfterValid :=
      rfl
    exact (foldl_readEvent_valid _ hsame).trans hvalid
  · rw [hfirst, hsub]
    exact hname
  · dsimp only
    rw [hfirst, hsub]

/-! The texts that are looked for are not in the element, and do not begin in it. -/

theorem fromFirst_cons_ne {p c : Char} (hne : p ≠ c) (s : List Char) :
    fromFirst (p :: pat) (c :: s) = fromFirst (p :: pat) s := by
  have hprefix : (p :: pat).isPrefixOf (c :: s) = false := by simp [List.isPrefixOf, hne]
  rw [fromFirst, hprefix]
  rfl

theorem fromFirst_append {front : List Char} (h : p ∉ front) (s : List Char) :
    fromFirst (p :: pat) (front ++ s) = fromFirst (p :: pat) s := by
  induction front with
  | nil => rfl
  | cons c front ih =>
    rw [List.mem_cons, not_or] at h
    rw [List.cons_append, fromFirst_cons_ne h.1, ih h.2]

theorem fromFirst_nameIdElement (hN : p ≠ 'N') (hslash : p ≠ '/') (hname : '<' ∉ name.toList)
    (s : List Char) :
    fromFirst ('<' :: p :: pat) (nameIdElement name ++ s) = fromFirst ('<' :: p :: pat) s := by
  have hskip : ∀ (c : Char) s, p ≠ c → fromFirst ('<' :: p :: pat) ('<' :: c :: s) =
      fromFirst ('<' :: p :: pat) (c :: s) := by
    intro c s hne
    have hprefix : ('<' :: p :: pat).isPrefixOf ('<' :: c :: s) = false := by
      simp [List.isPrefixOf, hne]
    rw [fromFirst, hprefix]
    rfl
  have hstart : ∀ s, fromFirst ('<' :: p :: pat) ("<NameID>".toList ++ s) =
      fromFirst ('<' :: p :: pat) s := fun s =>
    (hskip 'N' _ hN).trans (fromFirst_append (show '<' ∉ "NameID>".toList by decide) s)
  have hend : ∀ s, fromFirst ('<' :: p :: pat) ("</NameID>".toList ++ s) =
      fromFirst ('<' :: p :: pat) s := fun s =>
    (hskip '/' _ hslash).trans (fromFirst_append (show '<' ∉ "/NameID>".toList by decide) s)
  unfold nameIdElement
  rw [List.append_assoc, List.append_assoc, hstart, fromFirst_append hname, hend]

theorem fromFirst_putFirst (hN : p ≠ 'N') (hslash : p ≠ '/') (hname : '<' ∉ name.toList)
    (xml : String) :
    fromFirst ('<' :: p :: pat) (putFirst (nameIdElement name) xml).toList =
      fromFirst ('<' :: p :: pat) xml.toList := by
  unfold putFirst
  split
  · next rest hxml =>
    rw [hxml, String.toList_ofList, fromFirst_cons_ne (by decide), fromFirst_cons_ne (by decide),
      fromFirst_nameIdElement hN hslash hname]
  · rw [String.toList_ofList, fromFirst_nameIdElement hN hslash hname]

theorem extractBetween_putFirst {tag : String} {endTag : String}
    (htag : tag.toList = '<' :: p :: pat) (hN : p ≠ 'N') (hslash : p ≠ '/')
    (hname : '<' ∉ name.toList) (xml : String) :
    extractBetween (putFirst (nameIdElement name) xml) tag endTag =
      extractBetween xml tag endTag := by
  unfold extractBetween
  rw [htag, fromFirst_putFirst hN hslash hname]

theorem signed_putFirst (hname : '<' ∉ name.toList) (xml : String) :
    signatureValue (putFirst (nameIdElement name) xml) = signatureValue xml ∧
      signedInfo (putFirst (nameIdElement name) xml) = signedInfo xml := by
  unfold signatureValue signedInfo
  constructor <;> rw [extractBetween_putFirst rfl (by decide) (by decide) hname,
    extractBetween_putFirst rfl (by decide) (by decide) hname]

theorem contains_putFirst {pat : String} {ps : List Char} (hpat : pat.toList = p :: ps)
    (hmark : p ≠ '\uFEFF') (element : List Char) (h : contains xml pat = true) :
    contains (putFirst element xml) pat = true := by
  unfold contains at h ⊢
  rw [isInfix_iff] at h ⊢
  unfold putFirst
  split
  · next rest hxml =>
    rw [hxml] at h
    rw [String.toList_ofList, ← List.cons_append]
    obtain hprefix | hrest := List.infix_cons_iff.mp h
    · rw [hpat] at hprefix
      exact absurd (List.cons_prefix_cons.mp hprefix).1 hmark
    · exact hrest.trans (List.suffix_append _ _).isInfix
  · rw [String.toList_ofList]
    exact h.trans (List.suffix_append _ _).isInfix

theorem statusSuccess_putFirst (element : List Char) (h : statusSuccess xml = true) :
    statusSuccess (putFirst element xml) = true := by
  unfold statusSuccess at h ⊢
  rw [Bool.or_eq_true] at h ⊢
  exact h.imp (contains_putFirst rfl (by decide) element)
    (contains_putFirst rfl (by decide) element)

theorem fromUTF8_toByteArray (s : String) : String.fromUTF8? s.toByteArray = some s :=
  dif_pos s.isValidUTF8

theorem processAcsResponse_eq_ok {response : String} :
    processAcsResponse crates std now certificatePem identity response = .ok claims ↔
      ∃ xml user, responseXml crates response = .ok xml ∧ statusSuccess xml = true ∧
        (trim certificatePem).isEmpty = false ∧
        verifySignature crates xml certificatePem = .ok () ∧
        parseAssertionUser crates std now xml = .ok user ∧
        claims = {
          sub := user.sub
          email := emailFromClaims user.email user.name user.sub
          name := user.name
          role := resolveRole identity user.email user.groups
          provider := "saml"
          jti := none } := by
  unfold processAcsResponse
  constructor
  · intro h
    obtain ⟨xml, hxml, h⟩ := except_ok_bind_iff.mp h
    obtain ⟨_, hstatus, h⟩ := except_ok_bind_iff.mp h
    obtain ⟨_, hpem, h⟩ := except_ok_bind_iff.mp h
    obtain ⟨_, hsignature, h⟩ := except_ok_bind_iff.mp h
    obtain ⟨user, huser, h⟩ := except_ok_bind_iff.mp h
    refine ⟨xml, user, hxml, ?_, ?_, hsignature, huser, (Except.ok.inj h).symm⟩
    · simpa using bailIf_eq_ok.mp hstatus
    · exact Bool.eq_false_iff.mpr (bailIf_eq_ok.mp hpem)
  · rintro ⟨xml, user, hxml, hstatus, hpem, hsignature, huser, rfl⟩
    refine except_ok_bind_iff.mpr ⟨xml, hxml, ?_⟩
    refine except_ok_bind_iff.mpr ⟨(), bailIf_eq_ok.mpr (by simp [hstatus]), ?_⟩
    refine except_ok_bind_iff.mpr ⟨(), bailIf_eq_ok.mpr (by rw [hpem]; exact nofun), ?_⟩
    exact except_ok_bind_iff.mpr ⟨(), hsignature, except_ok_bind_iff.mpr ⟨user, huser, rfl⟩⟩

/-- A response with an element put in front is accepted for whom the element names. -/
theorem processAcsResponse_putFirst (hread : ReadsInOrder crates.readEvents)
    {response response' xml : String} (hxml : responseXml crates response = .ok xml)
    (hxml' : responseXml crates response' = .ok (putFirst (nameIdElement name) xml))
    (h : processAcsResponse crates std now certificatePem identity response = .ok claims)
    (hplain : ∀ c ∈ name.toList, c.isAlphanum = true) (hne : name ≠ "") (htrim : trim name = name) :
    SameSigned crates response response' ∧
      ∃ claims', processAcsResponse crates std now certificatePem identity response' = .ok claims' ∧
        claims'.sub = name := by
  obtain ⟨xml0, user, hxml0, hstatus, hpem, hsignature, huser, -⟩ := processAcsResponse_eq_ok.mp h
  obtain rfl : xml = xml0 := Except.ok.inj (hxml.symm.trans hxml0)
  have hname : '<' ∉ name.toList := fun hmem => absurd (hplain '<' hmem) (by decide)
  obtain ⟨user', huser', hsub⟩ := parseAssertionUser_putFirst (hread name xml hne hplain) htrim
    (by simpa using hne) huser
  obtain ⟨hvalue, hinfo⟩ := signed_putFirst hname xml
  have hsignature' :
      verifySignature crates (putFirst (nameIdElement name) xml) certificatePem = .ok () := by
    rw [← hsignature]
    unfold verifySignature
    rw [hvalue, hinfo]
  exact ⟨⟨xml, _, hxml, hxml', hvalue.symm, hinfo.symm⟩, _, processAcsResponse_eq_ok.mpr
    ⟨_, user', hxml', statusSuccess_putFirst _ hstatus, hpem, hsignature', huser', rfl⟩, hsub⟩

theorem responseXml_of_decode {response xml : String} (htrim : trim response = response)
    (hdecode : crates.decode response = .ok xml.toByteArray) :
    responseXml crates response = .ok xml := by
  unfold responseXml
  dsimp only
  rw [htrim, hdecode]
  refine except_ok_bind_iff.mpr ⟨_, rfl, ?_⟩
  rw [fromUTF8_toByteArray]
  rfl

/-- A response that is accepted can be changed so that it is accepted for someone else. -/
theorem exists_forged (hread : ReadsInOrder crates.readEvents) (hencodes : Encodes crates.decode)
    {response : String}
    (h : processAcsResponse crates std now certificatePem identity response = .ok claims)
    (hplain : ∀ c ∈ name.toList, c.isAlphanum = true) (hne : name ≠ "") (htrim : trim name = name) :
    ∃ response' claims', SameSigned crates response response' ∧
      processAcsResponse crates std now certificatePem identity response' = .ok claims' ∧
      claims'.sub = name := by
  obtain ⟨xml, -, hxml, -⟩ := processAcsResponse_eq_ok.mp h
  obtain ⟨response', htext, hdecode⟩ := hencodes (putFirst (nameIdElement name) xml).toByteArray
  obtain ⟨hsame, claims', h', hsub⟩ := processAcsResponse_putFirst hread hxml
    (responseXml_of_decode htext hdecode) h hplain hne htrim
  exact ⟨response', claims', hsame, h', hsub⟩

/-- For every response that is accepted there is another one, with the same signature and the same
signed text, that is accepted with other claims. -/
theorem not_boundBySignature (hread : ReadsInOrder crates.readEvents)
    (hencodes : Encodes crates.decode) {certificatePem : String} {identity : IdentitySettings}
    {response : String} {claims : AuthUserClaims}
    (h : processAcsResponse crates std now certificatePem identity response = .ok claims) :
    ¬ BoundBySignature crates std certificatePem identity response := by
  intro hbound
  have hsub : ∀ name, (∀ c ∈ name.toList, c.isAlphanum = true) → name ≠ "" → trim name = name →
      claims.sub = name := by
    intro name hplain hne htrim
    obtain ⟨response', claims', hsame, h', hname⟩ := exists_forged hread hencodes h hplain hne htrim
    rw [hbound response' now now claims claims' hsame h h', hname]
  have heq := (hsub "a" (by decide) (by decide) (by decide)).symm.trans
    (hsub "b" (by decide) (by decide) (by decide))
  exact absurd heq (by decide)

end Proofs

/-- The attributes of a tag, from its text split at the quotes. -/
def tagAttributes : List (List Char) → List (String × String)
  | key :: val :: rest =>
    (String.ofList (key.filter fun c => c ≠ ' ' && c ≠ '='), String.ofList val) ::
      tagAttributes rest
  | _ => []

def tagEvent : List Char → XmlEvent
  | '/' :: name => .end (String.ofList name)
  | tag =>
    let (name, rest) := tag.span fun c => c ≠ ' ' && c ≠ '/'
    .start (String.ofList name) (tagAttributes (rest.splitOn '"'))

def textEvents (text : List Char) : List XmlEvent :=
  if text.isEmpty then [] else [.text (String.ofList text)]

def readPlain (seen : List Char) : (inTag : Bool) → List Char → List XmlEvent
  | false, [] => textEvents seen
  | false, '<' :: rest => textEvents seen ++ readPlain [] true rest
  | false, c :: rest => readPlain (seen ++ [c]) false rest
  | true, [] => []
  | true, '>' :: rest => tagEvent seen :: readPlain [] false rest
  | true, c :: rest => readPlain (seen ++ [c]) true rest

def withoutMark : List Char → List Char
  | '\uFEFF' :: rest => rest
  | rest => rest

theorem readPlain_tag {tag : List Char} (h : '>' ∉ tag) (seen rest : List Char) :
    readPlain seen true (tag ++ '>' :: rest) =
      tagEvent (seen ++ tag) :: readPlain [] false rest := by
  induction tag generalizing seen with
  | nil => simp [readPlain]
  | cons c tag ih =>
    rw [List.mem_cons, not_or] at h
    rw [List.cons_append, readPlain, ih h.2, List.append_assoc]
    · rfl
    · exact fun hc => h.1 hc.symm

theorem readPlain_text {text : List Char} (h : '<' ∉ text) (seen rest : List Char) :
    readPlain seen false (text ++ '<' :: rest) =
      textEvents (seen ++ text) ++ readPlain [] true rest := by
  induction text generalizing seen with
  | nil => simp [readPlain]
  | cons c text ih =>
    rw [List.mem_cons, not_or] at h
    rw [List.cons_append, readPlain, ih h.2, List.append_assoc]
    · rfl
    · exact fun hc => h.1 hc.symm

theorem readPlain_nameIdElement {name : String} (hne : name ≠ "")
    (hname : ∀ c ∈ name.toList, c.isAlphanum = true) (rest : List Char) :
    readPlain [] false (nameIdElement name ++ rest) =
      nameIdEvents name ++ readPlain [] false rest := by
  have hless : '<' ∉ name.toList := fun hmem => absurd (hname '<' hmem) (by decide)
  have hopen := readPlain_tag (show '>' ∉ "NameID".toList by decide) []
    (name.toList ++ '<' :: ("/NameID".toList ++ '>' :: rest))
  have hclose := readPlain_tag (show '>' ∉ "/NameID".toList by decide) [] rest
  have htext := readPlain_text hless [] ("/NameID".toList ++ '>' :: rest)
  have hevents : textEvents ([] ++ name.toList) = [.text name] := by
    unfold textEvents
    rw [List.nil_append, String.ofList_toList, if_neg]
    simpa using hne
  have hsplit : nameIdElement name ++ rest =
      '<' :: ("NameID".toList ++ '>' ::
        (name.toList ++ '<' :: ("/NameID".toList ++ '>' :: rest))) := by
    unfold nameIdElement
    rw [List.append_assoc, List.append_assoc]
    rfl
  rw [hsplit, readPlain, hopen, htext, hclose, hevents]
  rfl

theorem readPlain_readsInOrder :
    ReadsInOrder fun xml => ⟨readPlain [] false (withoutMark xml.toList), none⟩ := by
  intro name xml hne hname
  have hfirst : withoutMark (putFirst (nameIdElement name) xml).toList =
      nameIdElement name ++ withoutMark xml.toList := by
    unfold putFirst
    split
    · next rest hxml => rw [hxml, String.toList_ofList]; rfl
    · next hxml =>
      rw [String.toList_ofList]
      have hkeep : withoutMark xml.toList = xml.toList := by
        unfold withoutMark
        split
        · next rest heq => exact absurd heq (hxml rest)
        · rfl
      rw [hkeep]
      rfl
  dsimp only
  rw [hfirst, readPlain_nameIdElement hne hname]

def decodeText (text : String) : Except String ByteArray :=
  match Base64.decode text.toList with
  | some bytes => .ok ⟨bytes.toArray⟩
  | none => .error "Invalid input"

def encodeText (xml : String) : String :=
  String.ofList (Base64.encode xml.toByteArray.data.toList)

theorem trim_of_forall {s : String} (h : ∀ c ∈ s.toList, isWhitespace c = false) : trim s = s := by
  have hdrop : ∀ cs : List Char, (∀ c ∈ cs, isWhitespace c = false) →
      cs.dropWhile isWhitespace = cs := by
    intro cs hcs
    cases cs with
    | nil => rfl
    | cons c cs => rw [List.dropWhile_cons, hcs c List.mem_cons_self]; rfl
  unfold trim trimEndMatches trimStart trimStartMatches
  rw [String.toList_ofList, hdrop _ h, hdrop _ fun c hc => h c (List.mem_reverse.mp hc),
    List.reverse_reverse, String.ofList_toList]

theorem decodeText_encode (bytes : ByteArray) :
    trim (String.ofList (Base64.encode bytes.data.toList)) =
        String.ofList (Base64.encode bytes.data.toList) ∧
      decodeText (String.ofList (Base64.encode bytes.data.toList)) = .ok bytes := by
  constructor
  · refine trim_of_forall fun c hc => ?_
    rw [String.toList_ofList] at hc
    have hall : ∀ c ∈ '=' :: Base64.alphabet, isWhitespace c = false := by decide +kernel
    exact hall c (Base64.mem_encode hc)
  · unfold decodeText
    rw [String.toList_ofList, Base64.decode_encode]

theorem decodeText_encodes : Encodes decodeText := fun bytes => ⟨_, decodeText_encode bytes⟩

def loginSignature : String := "c2lnbmF0dXJl"

def loginSignedInfo : String := "<Reference URI=\"#assertion\"/>"

def loginCrates : SamlCrates Unit where
  decode := decodeText
  readEvents := fun xml => ⟨readPlain [] false (withoutMark xml.toList), none⟩
  parseFromRfc3339 := fun _ => .error "input contains invalid characters"
  publicKey := fun _ => .ok ()
  verifier := fun _ text => .ok fun signature =>
    some (text = s!"<SignedInfo>{loginSignedInfo}</SignedInfo>" ∧
      signature = "signature".toByteArray)

theorem responseXml_encodeText (xml : String) :
    responseXml loginCrates (encodeText xml) = .ok xml := by
  obtain ⟨htrim, hdecode⟩ := decodeText_encode xml.toByteArray
  exact responseXml_of_decode htrim hdecode

def loginText : StdText where
  toLowercase := fun s => s.toLower
  toUppercase := fun s => s.toUpper
  display := fun _ => ""
  displayRounded := fun _ => ""
  debug := id

def loginIdentity : IdentitySettings := { defaultRole := "", adminRoles := [], adminEmails := [] }

def loginXml : String :=
  join "" ["<StatusCode Value=\"", "urn:oasis:names:tc:SAML:", "2.0:status:Success\"/>",
    "<SignedInfo>", loginSignedInfo, "</SignedInfo>",
    "<SignatureValue>", loginSignature, "</SignatureValue>", "<NameID>alice</NameID>"]

def loginClaims : AuthUserClaims where
  sub := "alice"
  email := none
  name := none
  role := "operator"
  provider := "saml"
  jti := none

theorem loginXml_toList : loginXml.toList =
    "<StatusCode Value=\"".toList ++ ("urn:oasis:names:tc:SAML:".toList ++
      ("2.0:status:Success\"/>".toList ++ ("<SignedInfo>".toList ++ (loginSignedInfo.toList ++
        ("</SignedInfo>".toList ++ ("<SignatureValue>".toList ++ (loginSignature.toList ++
          ("</SignatureValue>".toList ++ "<NameID>alice</NameID>".toList)))))))) := by
  simp only [loginXml, join, String.toList_append, List.append_assoc]
  rfl

theorem loginXml_verified : verifySignature loginCrates loginXml "cert" = .ok () := by
  have hvalue : signatureValue loginXml = some loginSignature := by
    unfold signatureValue extractBetween
    rw [loginXml_toList]
    decide +kernel
  have hinfo : signedInfo loginXml = some loginSignedInfo := by
    unfold signedInfo extractBetween
    rw [loginXml_toList]
    decide +kernel
  have hdecode : decodeText (replaceChars ['\n', ' ', '\t'] "" loginSignature) =
      .ok "signature".toByteArray := by decide +kernel
  unfold verifySignature
  rw [hvalue, hinfo]
  dsimp only [loginCrates]
  rw [hdecode]
  refine except_ok_bind_iff.mpr ⟨_, rfl, except_ok_bind_iff.mpr ⟨(), rfl, ?_⟩⟩
  exact except_ok_bind_iff.mpr ⟨_, rfl, bailIf_eq_ok.mpr (by simp)⟩

theorem loginXml_user : parseAssertionUser loginCrates loginText 0 loginXml =
    .ok { sub := "alice", email := none, name := none, groups := [] } := by
  unfold parseAssertionUser
  dsimp only [loginCrates]
  rw [loginXml_toList]
  decide +kernel

theorem login_accepted : processAcsResponse loginCrates loginText 0 "cert" loginIdentity
    (encodeText loginXml) = .ok loginClaims := by
  have hstatus : statusSuccess loginXml = true := by
    unfold statusSuccess contains
    rw [loginXml_toList]
    decide +kernel
  exact processAcsResponse_eq_ok.mpr ⟨loginXml, _, responseXml_encodeText _, hstatus, by decide,
    loginXml_verified, loginXml_user, by decide⟩

theorem login_not_bound :
    ¬ BoundBySignature loginCrates loginText "cert" loginIdentity (encodeText loginXml) :=
  not_boundBySignature readPlain_readsInOrder decodeText_encodes login_accepted

def forgedXml : String := putFirst (nameIdElement "mallory") loginXml

/-- The response for `alice` with one element in front is accepted for `mallory`. -/
theorem forged_accepted :
    SameSigned loginCrates (encodeText loginXml) (encodeText forgedXml) ∧
    processAcsResponse loginCrates loginText 0 "cert" loginIdentity (encodeText loginXml) =
      .ok loginClaims ∧
    ∃ claims', processAcsResponse loginCrates loginText 0 "cert" loginIdentity
      (encodeText forgedXml) = .ok claims' ∧ claims'.sub = "mallory" := by
  obtain ⟨hsame, hforged⟩ := processAcsResponse_putFirst readPlain_readsInOrder
    (responseXml_encodeText loginXml) (responseXml_encodeText forgedXml) login_accepted
    (by decide) (by decide) (by decide)
  exact ⟨hsame, login_accepted, hforged⟩

end Guestkit.Api
