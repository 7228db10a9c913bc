import SimAgentNet.OauthCore.Challenge

/-! # The local token verifier

Access tokens in the compact form are checked against one document of keys, which is replaced only
by a newer one. Decoding, the records of a token and the check of a signature are parameters. -/

namespace SimAgentNet.OauthJose
open OauthCore (OAuthError ScopeSet)

/-! ## Data -/

inductive Algorithm where
  | rs256
  | es256
  | edDsa
deriving DecidableEq

def Algorithm.name : Algorithm → String
  | .rs256 => "RS256"
  | .es256 => "ES256"
  | .edDsa => "EdDSA"

def Algorithm.ofName : String → Option Algorithm
  | "RS256" => some .rs256
  | "ES256" => some .es256
  | "EdDSA" => some .edDsa
  | _ => none

structure KeyDocument where
  generation : Nat
  json : List UInt8
deriving DecidableEq

structure LocalJwtVerifier where
  keys : KeyDocument
  algorithms : List Algorithm
  skew : Nat

structure Header where
  alg : String
  kid : Option String
  typ : Option String

inductive Audience where
  | one (value : String)
  | many (values : List String)
deriving DecidableEq

def Audience.set : Audience → SortedSet String
  | .one value => .ofList [value]
  | .many values => .ofList values

structure Claims where
  iss : String
  sub : String
  aud : Audience
  exp : Nat
  nbf : Option Nat
  scope : Option String
  resource : Option String
  jti : Option String
deriving DecidableEq

structure Jwk where
  kty : String
  kid : Option String
  alg : Option String
  usage : Option String
  n : Option String
  e : Option String
  x : Option String
  y : Option String
  crv : Option String

inductive PublicKey where
  | rsaPkcs1Sha256 (n e : List UInt8)
  | ecdsaP256Sha256 (point : List UInt8)
  | ed25519 (x : List UInt8)

structure VerifiedPrincipal (SecureUrl : Type) where
  issuer : SecureUrl
  subject : String
  audience : SortedSet String
  resource : SecureUrl
  scopes : ScopeSet
  expiresAt : Nat
  tokenId : Option String

/-- What is external to the verifier. -/
structure TokenApi (SecureUrl : Type) where
  asStr : SecureUrl → String
  base64 : List Char → Option (List UInt8)
  header : List UInt8 → Option Header
  claims : List UInt8 → Option Claims
  jwkSet : List UInt8 → Option (List Jwk)
  accepts : PublicKey → (message signature : List UInt8) → Bool

def u64Max : Nat := 2 ^ 64 - 1

def saturatingAdd (a b : Nat) : Nat := min (a + b) u64Max

def refuseIf (condition : Prop) [Decidable condition] (message : String) : Except OAuthError Unit :=
  if condition then .error ⟨message⟩ else .ok ()

def orRefuse (message : String) : Option α → Except OAuthError α
  | some a => .ok a
  | none => .error ⟨message⟩

/-! ## Key documents -/

section
variable {SecureUrl : Type} (api : TokenApi SecureUrl)

def LocalJwtVerifier.new (keys : KeyDocument) (algorithms : List Algorithm) (skewSeconds : Nat) :
    Except OAuthError LocalJwtVerifier := do
  refuseIf (algorithms = []) "JWT algorithm allowlist is empty"
  refuseIf (1024 * 1024 < keys.json.length) "JWK document exceeds policy cap"
  let _ ← orRefuse "invalid JWK set" (api.jwkSet keys.json)
  return ⟨keys, algorithms.dedup, skewSeconds⟩

/-- The outcome of a rotation, and the verifier after it. -/
def LocalJwtVerifier.rotate (verifier : LocalJwtVerifier) (next : KeyDocument) :
    Except OAuthError Unit × LocalJwtVerifier :=
  if next.generation ≤ verifier.keys.generation then
    (.error ⟨"stale JWK generation"⟩, verifier)
  else
    match LocalJwtVerifier.new api next verifier.algorithms verifier.skew with
    | .error error => (.error error, verifier)
    | .ok replacement => (.ok (), { verifier with keys := replacement.keys })

/-! ## Tokens -/

def decode (text : List Char) : Except OAuthError (List UInt8) :=
  orRefuse "invalid JWT encoding" (api.base64 text)

def decodeJson (read : List UInt8 → Option α) (text : List Char) : Except OAuthError α := do
  let bytes ← decode api text
  orRefuse "invalid JWT JSON" (read bytes)

/-- A part of a key that has to be there. -/
def keyPart (incomplete : String) (part : Option String) : Except OAuthError (List UInt8) := do
  let text ← orRefuse incomplete part
  decode api text.toList

def publicKey (key : Jwk) : Algorithm → Except OAuthError PublicKey
  | .rs256 =>
    if key.kty = "RSA" then do
      let n ← keyPart api "RSA key is incomplete" key.n
      let e ← keyPart api "RSA key is incomplete" key.e
      return .rsaPkcs1Sha256 n e
    else .error ⟨"JWK type does not match JWT algorithm"⟩
  | .es256 =>
    if key.kty = "EC" ∧ key.crv = some "P-256" then do
      let x ← keyPart api "EC key is incomplete" key.x
      let y ← keyPart api "EC key is incomplete" key.y
      return .ecdsaP256Sha256 (4 :: (x ++ y))
    else .error ⟨"JWK type does not match JWT algorithm"⟩
  | .edDsa =>
    if key.kty = "OKP" ∧ key.crv = some "Ed25519" then do
      let x ← keyPart api "Ed25519 key is incomplete" key.x
      return .ed25519 x
    else .error ⟨"JWK type does not match JWT algorithm"⟩

def verifyKey (key : Jwk) (algorithm : Algorithm) (message signature : List UInt8) :
    Except OAuthError Unit := do
  let material ← publicKey api key algorithm
  refuseIf (api.accepts material message signature = false) "JWT signature verification failed"

def isCandidate (header : Header) (algorithm : Algorithm) (key : Jwk) : Bool :=
  key.kid == header.kid && key.alg.all (· == algorithm.name) && key.usage.all (· == "sig")

def VerifiedPrincipal.new (principal : VerifiedPrincipal SecureUrl) :
    Except OAuthError (VerifiedPrincipal SecureUrl) := do
  refuseIf (principal.subject = "" ∨ principal.audience.elems = []) "incomplete verified principal"
  return principal

def LocalJwtVerifier.verify (verifier : LocalJwtVerifier) (token : String)
    (expectedIssuer expectedResource : SecureUrl) (requiredScopes : ScopeSet) (now : Nat) :
    Except OAuthError (VerifiedPrincipal SecureUrl) :=
  match token.toList.splitOn '.' with
  | [head, body, signature] => do
    let header ← decodeJson api api.header head
    refuseIf (header.typ.any fun typ => typ != "at+jwt" && typ != "JWT") "unexpected JWT type"
    let algorithm ← orRefuse "JWT algorithm is not allowed" (Algorithm.ofName header.alg)
    refuseIf (algorithm ∉ verifier.algorithms) "JWT algorithm is not allowed"
    let set ← orRefuse "invalid JWK set" (api.jwkSet verifier.keys.json)
    let key ← orRefuse "JWT key id is missing or ambiguous" (match header.kid,
        set.filter (isCandidate header algorithm) with
      | some _, [key] => some key
      | _, _ => none)
    let message := head ++ '.' :: body
    let signature ← decode api signature
    verifyKey api key algorithm (Text.utf8 (.ofList message)) signature
    let claims ← decodeJson api api.claims body
    refuseIf (claims.iss ≠ api.asStr expectedIssuer) "token issuer mismatch"
    refuseIf (saturatingAdd claims.exp verifier.skew < now) "token expired"
    refuseIf (claims.nbf.any (saturatingAdd now verifier.skew < ·)) "token not yet valid"
    let audience := claims.aud.set
    refuseIf (api.asStr expectedResource ∉ audience) "token audience mismatch"
    refuseIf (claims.resource ≠ some (api.asStr expectedResource)) "token resource mismatch"
    let scopes ← ScopeSet.parse (claims.scope.getD "")
    refuseIf (¬requiredScopes ⊆ scopes) "insufficient token scope"
    VerifiedPrincipal.new
      { issuer := expectedIssuer
        subject := claims.sub
        audience
        resource := expectedResource
        scopes
        expiresAt := claims.exp
        tokenId := claims.jti }
  | _ => .error ⟨"malformed JWT"⟩

end

/-! ## Acceptance -/

/-- The key is of the type that the algorithm signs with. -/
def Jwk.Signs (key : Jwk) : Algorithm → Prop
  | .rs256 => key.kty = "RSA"
  | .es256 => key.kty = "EC" ∧ key.crv = some "P-256"
  | .edDsa => key.kty = "OKP" ∧ key.crv = some "Ed25519"

/-- The key is the only one of the document that can be used under the id of the header. -/
structure KeyOf {SecureUrl : Type} (api : TokenApi SecureUrl) (document : KeyDocument)
    (header : Header) (algorithm : Algorithm) (key : Jwk) : Prop where
  identified : header.kid ≠ none
  single : ∃ set, api.jwkSet document.json = some set ∧
    set.filter (isCandidate header algorithm) = [key]
  signs : key.Signs algorithm

section
variable {SecureUrl : Type} {api : TokenApi SecureUrl}

/-- The header of a token, and its claims. -/
def readHeader (api : TokenApi SecureUrl) (token : String) : Option Header :=
  (token.toList.splitOn '.').head?.bind fun head => (api.base64 head).bind api.header

def readClaims (api : TokenApi SecureUrl) (token : String) : Option Claims :=
  (token.toList.splitOn '.')[1]?.bind fun body => (api.base64 body).bind api.claims

/-- All that a token has to satisfy besides its expiry. -/
structure Bound (api : TokenApi SecureUrl) (verifier : LocalJwtVerifier) (token : String)
    (expectedIssuer expectedResource : SecureUrl) (requiredScopes : ScopeSet) (now : Nat)
    (claims : Claims) : Prop where
  key : ∃ header algorithm key, readHeader api token = some header ∧
    header.alg = algorithm.name ∧ algorithm ∈ verifier.algorithms ∧
    KeyOf api verifier.keys header algorithm key ∧
    ∃ message signature material bytes, token.toList = message ++ '.' :: signature ∧
      '.' ∉ signature ∧ publicKey api key algorithm = .ok material ∧
      api.base64 signature = some bytes ∧
      api.accepts material (Text.utf8 (.ofList message)) bytes = true
  issuer : claims.iss = api.asStr expectedIssuer
  resource : claims.resource = some (api.asStr expectedResource)
  audience : api.asStr expectedResource ∈ claims.aud.set
  scopes : ∃ scopes, ScopeSet.parse (claims.scope.getD "") = .ok scopes ∧ requiredScopes ⊆ scopes
  notBefore : ∀ nbf, claims.nbf = some nbf → nbf ≤ now + verifier.skew

theorem refuseIf_eq_ok_iff {condition : Prop} [Decidable condition] {message : String} {u : Unit} :
    refuseIf condition message = .ok u ↔ ¬condition := by
  rw [refuseIf]
  split
  · exact iff_of_false nofun (not_not_intro ‹_›)
  · exact iff_of_true rfl ‹_›

theorem orRefuse_eq_ok_iff {message : String} {o : Option α} {a : α} :
    orRefuse message o = .ok a ↔ o = some a := by
  cases o with
  | none => exact iff_of_false nofun nofun
  | some b => simp [orRefuse]

theorem decodeJson_eq_ok_iff {read : List UInt8 → Option α} {text : List Char} {a : α} :
    decodeJson api read text = .ok a ↔ (api.base64 text).bind read = some a := by
  simp only [decodeJson, decode, Except.bind_eq_ok_iff, orRefuse_eq_ok_iff,
    Option.bind_eq_some_iff]

theorem name_of_ofName {name : String} {algorithm : Algorithm}
    (h : Algorithm.ofName name = some algorithm) : name = algorithm.name := by
  unfold Algorithm.ofName at h
  split at h
  all_goals cases h
  all_goals rfl

theorem signs_of_publicKey {key : Jwk} {algorithm : Algorithm} {material : PublicKey}
    (h : publicKey api key algorithm = .ok material) : key.Signs algorithm := by
  cases algorithm with
  | _ =>
    rw [publicKey] at h
    split at h
    · assumption
    · cases h

theorem verifyKey_eq_ok {key : Jwk} {algorithm : Algorithm} {message signature : List UInt8}
    {u : Unit} (h : verifyKey api key algorithm message signature = .ok u) :
    ∃ material, publicKey api key algorithm = .ok material ∧
      api.accepts material message signature = true := by
  obtain ⟨material, hmaterial, haccepts⟩ := Except.bind_eq_ok_iff.mp h
  exact ⟨material, hmaterial, by simpa using refuseIf_eq_ok_iff.mp haccepts⟩

/-- An accepted token is bound to what is expected, and has not expired by the verifier's count. -/
theorem verify_spec {verifier : LocalJwtVerifier} {token : String}
    {expectedIssuer expectedResource : SecureUrl} {requiredScopes : ScopeSet} {now : Nat}
    {principal : VerifiedPrincipal SecureUrl}
    (h : verifier.verify api token expectedIssuer expectedResource requiredScopes now =
      .ok principal) :
    ∃ claims, readClaims api token = some claims ∧
      Bound api verifier token expectedIssuer expectedResource requiredScopes now claims ∧
      ¬saturatingAdd claims.exp verifier.skew < now := by
  rw [LocalJwtVerifier.verify] at h
  split at h
  · rename_i head body signature hsplit
    simp only [Except.bind_eq_ok_iff, refuseIf_eq_ok_iff, orRefuse_eq_ok_iff,
      decodeJson_eq_ok_iff, decode] at h
    obtain ⟨header, hheader, -, -, algorithm, halgorithm, -, hallowed, set, hset, key, hkey, bytes,
      hbytes, _, hverify, claims, hclaims, -, hissuer, -, hexpiry, -, hnotBefore, -, haudience, -,
      hresource, scopes, hscopes, -, hgranted, -⟩ := h
    obtain ⟨material, hmaterial, haccepts⟩ := verifyKey_eq_ok hverify
    have hjoin : ['.'].intercalate (token.toList.splitOn '.') = token.toList :=
      List.intercalate_splitOn '.'
    rw [hsplit] at hjoin
    have hdot : '.' ∉ signature := by
      apply Columns.not_mem_of_mem_splitOn
      rw [hsplit]
      exact List.mem_cons_of_mem _ (List.mem_cons_of_mem _ List.mem_cons_self)
    have hkeyOf : KeyOf api verifier.keys header algorithm key := by
      split at hkey
      · rename_i kid found hkid hfound
        cases hkey
        exact ⟨fun hnone => (nomatch hkid.symm.trans hnone), ⟨set, hset, hfound⟩,
          signs_of_publicKey hmaterial⟩
      · cases hkey
    refine ⟨claims, ?_, ⟨⟨header, algorithm, key, ?_, name_of_ofName halgorithm,
      not_not.mp hallowed, hkeyOf, head ++ '.' :: body, signature, material, bytes, ?_, hdot,
      hmaterial, hbytes, haccepts⟩, not_ne_iff.mp hissuer, not_ne_iff.mp hresource,
      not_not.mp haudience, ⟨scopes, hscopes, not_not.mp hgranted⟩, ?_⟩, hexpiry⟩
    · rw [readClaims, hsplit]
      exact hclaims
    · rw [readHeader, hsplit]
      exact hheader
    · rw [← hjoin]
      simp
    · intro nbf hnbf
      rw [hnbf] at hnotBefore
      have hle := not_lt.mp fun hlt => hnotBefore (decide_eq_true hlt)
      exact hle.trans (min_le_left _ _)
  · cases h

/-! ## Rotation -/

/-- The document is a set of keys within the limit. -/
def ValidDocument (api : TokenApi SecureUrl) (document : KeyDocument) : Prop :=
  document.json.length ≤ 1024 * 1024 ∧ ∃ set, api.jwkSet document.json = some set

theorem validDocument_of_new {keys : KeyDocument} {algorithms : List Algorithm} {skew : Nat}
    {verifier : LocalJwtVerifier}
    (h : LocalJwtVerifier.new api keys algorithms skew = .ok verifier) :
    ValidDocument api keys ∧ verifier.keys = keys := by
  simp only [LocalJwtVerifier.new, Except.bind_eq_ok_iff, refuseIf_eq_ok_iff,
    orRefuse_eq_ok_iff] at h
  obtain ⟨-, -, -, hlength, set, hset, hverifier⟩ := h
  cases hverifier
  exact ⟨⟨not_lt.mp hlength, set, hset⟩, rfl⟩

/-- A rotation installs a newer valid document, or changes nothing. -/
theorem rotate_cases (verifier : LocalJwtVerifier) (next : KeyDocument) :
    (verifier.rotate api next = (.ok (), { verifier with keys := next }) ∧
      verifier.keys.generation < next.generation ∧ ValidDocument api next) ∨
    ∃ error, verifier.rotate api next = (.error error, verifier) := by
  rw [LocalJwtVerifier.rotate]
  split
  · exact .inr ⟨_, rfl⟩
  · rename_i hgeneration
    cases hnew : LocalJwtVerifier.new api next verifier.algorithms verifier.skew with
    | error error => exact .inr ⟨error, rfl⟩
    | ok replacement =>
      obtain ⟨hvalid, hkeys⟩ := validDocument_of_new hnew
      refine .inl ⟨?_, not_le.mp hgeneration, hvalid⟩
      rw [← hkeys]

/-- The verifier after a history of rotations. -/
def afterRotations (api : TokenApi SecureUrl) (verifier : LocalJwtVerifier)
    (history : List KeyDocument) : LocalJwtVerifier :=
  history.foldl (fun verifier next => (verifier.rotate api next).2) verifier

/-- The documents that a history of rotations installs, after that of the verifier. -/
def installed (api : TokenApi SecureUrl) :
    LocalJwtVerifier → List KeyDocument → List KeyDocument
  | _, [] => []
  | verifier, next :: history =>
    match verifier.rotate api next with
    | (.ok _, rotated) => next :: installed api rotated history
    | (.error _, same) => installed api same history

/-- The keys in use are those of the newest document installed. -/
structure Newest (api : TokenApi SecureUrl) (verifier : LocalJwtVerifier)
    (history : List KeyDocument) : Prop where
  last : (afterRotations api verifier history).keys =
    (installed api verifier history).getLastD verifier.keys
  newer : (verifier.keys :: installed api verifier history).Pairwise (·.generation < ·.generation)

theorem newest_afterRotations (history : List KeyDocument) :
    ∀ verifier : LocalJwtVerifier, Newest api verifier history := by
  induction history with
  | nil => exact fun verifier => ⟨rfl, List.pairwise_singleton _ _⟩
  | cons next history ih =>
    intro verifier
    have hcases := @rotate_cases SecureUrl api verifier next
    rcases hcases with ⟨hrotate, hnewer, -⟩ | ⟨error, hrotate⟩
    · obtain ⟨hlast, hpairwise⟩ := ih { verifier with keys := next }
      have hinstalled : installed api verifier (next :: history) =
          next :: installed api { verifier with keys := next } history := by
        rw [installed, hrotate]
      refine ⟨?_, ?_⟩
      · rw [afterRotations, List.foldl_cons, hrotate, hinstalled, List.getLastD_cons]
        exact hlast
      · rw [hinstalled]
        refine List.pairwise_cons.mpr ⟨?_, hpairwise⟩
        intro document hdocument
        rcases List.mem_cons.mp hdocument with rfl | hdocument
        · exact hnewer
        · exact hnewer.trans ((List.pairwise_cons.mp hpairwise).1 document hdocument)
    · obtain ⟨hlast, hpairwise⟩ := ih verifier
      have hinstalled : installed api verifier (next :: history) =
          installed api verifier history := by
        rw [installed, hrotate]
      refine ⟨?_, ?_⟩
      · rw [afterRotations, List.foldl_cons, hrotate, hinstalled]
        exact hlast
      · rw [hinstalled]
        exact hpairwise

/-! ## Validity -/

/-- An accepted token is one of its exact validity unless the time is that of its expiry; rotation
installs a newer valid document or changes nothing, and the newest one is in use. -/
theorem exact_validity_iff :
    (∀ verifier token expectedIssuer expectedResource requiredScopes now principal,
      LocalJwtVerifier.verify api verifier token expectedIssuer expectedResource requiredScopes
        now = .ok principal →
      ∃ claims, readClaims api token = some claims ∧
        (Bound api verifier token expectedIssuer expectedResource requiredScopes now claims ∧
            now < claims.exp + verifier.skew ↔
          now ≠ claims.exp + verifier.skew)) ∧
    (∀ verifier next,
      (LocalJwtVerifier.rotate api verifier next = (.ok (), { verifier with keys := next }) ∧
        verifier.keys.generation < next.generation ∧ ValidDocument api next) ∨
      ∃ error, LocalJwtVerifier.rotate api verifier next = (.error error, verifier)) ∧
    ∀ verifier history, Newest api verifier history := by
  refine ⟨?_, rotate_cases, fun verifier history => newest_afterRotations history verifier⟩
  intro verifier token expectedIssuer expectedResource requiredScopes now principal h
  obtain ⟨claims, hclaims, hbound, hexpiry⟩ := verify_spec h
  refine ⟨claims, hclaims, fun hvalid => hvalid.2.ne, fun hne => ⟨hbound, ?_⟩⟩
  have hle : now ≤ claims.exp + verifier.skew := (not_lt.mp hexpiry).trans (min_le_left _ _)
  exact lt_of_le_of_ne hle hne

end

namespace TokenSample

def headerText : List Char := "eyJhbGciOiJFZERTQSIsImtpZCI6ImsifQ".toList

def claimsText : List Char :=
  "eyJpc3MiOiJodHRwczovL2EvIiwic3ViIjoicyIsImF1ZCI6Imh0dHBzOi8vbS8iLCJleHAiOjIwMCwicmVzb3VyY2UiOiJodHRwczovL20vIn0".toList

def headerJson : List UInt8 := Text.utf8 "\x7b\"alg\":\"EdDSA\",\"kid\":\"k\"\x7d"

def claimsJson : List UInt8 := Text.utf8
  "\x7b\"iss\":\"https://a/\",\"sub\":\"s\",\"aud\":\"https://m/\",\"exp\":200,\"resource\":\"https://m/\"\x7d"

def claims : Claims where
  iss := "https://a/"
  sub := "s"
  aud := .one "https://m/"
  exp := 200
  nbf := none
  scope := none
  resource := some "https://m/"
  jti := none

/-- An Ed25519 key of one byte, which the signature of one byte is taken to fit. -/
def key : Jwk := ⟨"OKP", some "k", none, none, none, none, some "AA", none, some "Ed25519"⟩

def api : TokenApi String where
  asStr := id
  base64 text :=
    if text = headerText then some headerJson
    else if text = claimsText then some claimsJson
    else if text = ['A', 'A'] then some [0]
    else none
  header bytes := if bytes = headerJson then some ⟨"EdDSA", some "k", none⟩ else none
  claims bytes := if bytes = claimsJson then some claims else none
  jwkSet _ := some [key]
  accepts
    | .ed25519 x, _, signature => x == [0] && signature == [0]
    | _, _, _ => false

def verifier : LocalJwtVerifier := ⟨⟨1, []⟩, [.edDsa], 30⟩

def token : String := .ofList (headerText ++ '.' :: (claimsText ++ ['.', 'A', 'A']))

/-- What the characters of a literal are not is seen from the literal's list of characters. -/
theorem ne_of_chars {l l' : List Char} (h : l ≠ l') :
    (String.ofList l).toList ≠ (String.ofList l').toList := by
  rwa [String.toList_ofList, String.toList_ofList]

theorem not_mem_of_chars {c : Char} {l : List Char} (h : c ∉ l) :
    c ∉ (String.ofList l).toList := by
  rwa [String.toList_ofList]

theorem dot_not_mem : '.' ∉ headerText ∧ '.' ∉ claimsText :=
  ⟨not_mem_of_chars (by decide +kernel), not_mem_of_chars (by decide +kernel)⟩

theorem short_toList : "AA".toList = ['A', 'A'] := String.toList_ofList

theorem claimsText_ne : claimsText ≠ headerText := ne_of_chars (by decide +kernel)

theorem short_ne : ['A', 'A'] ≠ headerText ∧ ['A', 'A'] ≠ claimsText := by
  rw [← short_toList]
  exact ⟨ne_of_chars (by decide +kernel), ne_of_chars (by decide +kernel)⟩

theorem token_split : token.toList.splitOn '.' = [headerText, claimsText, ['A', 'A']] := by
  obtain ⟨hheader, hclaims⟩ := dot_not_mem
  rw [token, String.toList_ofList, List.splitOn_append_cons_self_of_not_mem hheader,
    List.splitOn_append_cons_self_of_not_mem hclaims]
  rfl

theorem base64_header {text : List Char} (h : text = headerText) :
    api.base64 text = some headerJson := if_pos h

theorem base64_claims {text : List Char} (hheader : text ≠ headerText) (h : text = claimsText) :
    api.base64 text = some claimsJson := (if_neg hheader).trans (if_pos h)

theorem base64_short {text : List Char} (hheader : text ≠ headerText) (hclaims : text ≠ claimsText)
    (h : text = ['A', 'A']) : api.base64 text = some [0] :=
  (if_neg hheader).trans ((if_neg hclaims).trans (if_pos h))

theorem read_header {bytes : List UInt8} (h : bytes = headerJson) :
    api.header bytes = some ⟨"EdDSA", some "k", none⟩ := if_pos h

theorem read_claims {bytes : List UInt8} (h : bytes = claimsJson) :
    api.claims bytes = some claims := if_pos h

theorem decode_of {text : List Char} {bytes : List UInt8} (h : api.base64 text = some bytes) :
    decode api text = .ok bytes := by
  rw [decode, h]
  rfl

theorem decodeJson_of {read : List UInt8 → Option α} {text : List Char} {bytes : List UInt8} {a : α}
    (h : api.base64 text = some bytes) (hread : read bytes = some a) :
    decodeJson api read text = .ok a := by
  rw [decodeJson, decode_of h]
  exact congrArg (orRefuse "invalid JWT JSON") hread

theorem readClaims_of {text : String} {head body signature : List Char} {bytes : List UInt8}
    {c : Claims} (hsplit : text.toList.splitOn '.' = [head, body, signature])
    (h : api.base64 body = some bytes) (hread : api.claims bytes = some c) :
    readClaims api text = some c := by
  rw [readClaims, hsplit]
  show (api.base64 body).bind api.claims = some c
  rw [h]
  exact hread

theorem decodeJson_header :
    decodeJson api api.header headerText = .ok ⟨"EdDSA", some "k", none⟩ :=
  decodeJson_of (base64_header rfl) (read_header rfl)

theorem decodeJson_claims : decodeJson api api.claims claimsText = .ok claims :=
  decodeJson_of (base64_claims claimsText_ne rfl) (read_claims rfl)

theorem decode_short : decode api ['A', 'A'] = .ok [0] :=
  decode_of (base64_short short_ne.1 short_ne.2 rfl)

theorem publicKey_key : publicKey api key .edDsa = .ok (.ed25519 [0]) := by
  have hpart : keyPart api "Ed25519 key is incomplete" (some "AA") = .ok [0] := by
    rw [keyPart, orRefuse, Except.ok_bind, short_toList, decode_short]
  have htype : key.kty = "OKP" ∧ key.crv = some "Ed25519" := ⟨rfl, rfl⟩
  rw [publicKey, if_pos htype]
  show (keyPart api "Ed25519 key is incomplete" (some "AA") >>= _) = _
  rw [hpart]
  rfl

/-- Any token of these parts is accepted until its expiry. -/
theorem verify_isOk {text : String} {head body : List Char}
    (hsplit : text.toList.splitOn '.' = [head, body, ['A', 'A']])
    (hheader : decodeJson api api.header head = .ok ⟨"EdDSA", some "k", none⟩)
    (hbody : decodeJson api api.claims body = .ok claims) (h : ¬230 < now) :
    (verifier.verify api text "https://a/" "https://m/" ∅ now).isOk = true := by
  have hexpiry : ¬saturatingAdd claims.exp verifier.skew < now := h
  have hnbf : claims.nbf = none := rfl
  have hset : (api.jwkSet verifier.keys.json) = some [key] := rfl
  have hkey (message : List UInt8) : verifyKey api key .edDsa message [0] = .ok () := by
    rw [verifyKey, publicKey_key]
    rfl
  have hcandidate : isCandidate ⟨"EdDSA", some "k", none⟩ .edDsa key = true := by decide +kernel
  have hcandidates : [key].filter (isCandidate ⟨"EdDSA", some "k", none⟩ .edDsa) = [key] :=
    List.filter_cons_of_pos hcandidate
  have halg : Algorithm.ofName "EdDSA" = some .edDsa := by decide +kernel
  unfold LocalJwtVerifier.verify
  simp only [hsplit, hheader, hbody, decode_short, Except.ok_bind, halg, orRefuse, hset,
    hcandidates, hkey, refuseIf, hexpiry, hnbf, Option.any_none]
  decide +kernel

theorem accepted : (∃ principal,
      verifier.verify api token "https://a/" "https://m/" ∅ 100 = .ok principal) ∧
    ∃ principal, verifier.verify api token "https://a/" "https://m/" ∅ 230 = .ok principal := by
  have hok {now : Nat} (h : ¬230 < now) :=
    verify_isOk token_split decodeJson_header decodeJson_claims h
  exact ⟨Except.exists_of_isOk (hok (by decide)), Except.exists_of_isOk (hok (by decide))⟩

theorem readClaims_token : readClaims api token = some claims :=
  readClaims_of token_split (base64_claims claimsText_ne rfl) (read_claims rfl)

end TokenSample

open TokenSample in
theorem exact_validity_sample :
    ∃ claims, readClaims api token = some claims ∧
      (Bound api verifier token "https://a/" "https://m/" ∅ 100 claims ∧
          100 < claims.exp + verifier.skew ↔
        100 ≠ claims.exp + verifier.skew) := by
  obtain ⟨principal, h⟩ := accepted.1
  exact exact_validity_iff.1 _ _ _ _ _ _ _ h

open TokenSample in
/-- A token is accepted at the time of its expiry. -/
theorem accepted_on_expiry :
    (∃ principal, verifier.verify api token "https://a/" "https://m/" ∅ 230 = .ok principal) ∧
    ∃ claims, readClaims api token = some claims ∧ ¬230 < claims.exp + verifier.skew := by
  exact ⟨accepted.2, claims, readClaims_token, lt_irrefl 230⟩

end SimAgentNet.OauthJose
