import EventLens.AuthService
import EventLens.DeliveryStatus
import EventLens.Doubles
import EventLens.JsonTexts
import EventLens.StorageKeys

/-!
The signatures of the provider's reports. What is signed is the id, the time
and the body of a message, joined with dots, so that a captured signature also
fits other cuts of the same text. None of them is accepted as JSON but the
message itself, and the log of mails is what the provider's own messages make
of it, whatever else is posted.
-/

namespace EventLens.Emails

open JsonTexts Doubles LastWrite

section Numbers

def natural? (ds : List Char) : Option ℕ :=
  if ds ≠ [] ∧ ds.all Char.isDigit then some (Nat.ofDigitChars 10 ds 0) else none

def signed? {α : Type} [Neg α] (read : List Char → Option α) : List Char → Option α
  | '+' :: t => read t
  | '-' :: t => (read t).map fun a => -a
  | t => read t

def exponent? : List Char → Option ℤ
  | [] => some 0
  | c :: t => if c ∈ ['e', 'E'] then signed? (fun ds => (natural? ds).map Int.ofNat) t else none

/-- Digits, a dot among or next to them, and an exponent. -/
def unsigned? (t : List Char) : Option ℚ :=
  let whole := t.takeWhile Char.isDigit
  let rest := t.dropWhile Char.isDigit
  let fraction := if rest.head? = some '.' then rest.tail.takeWhile Char.isDigit else []
  let rest := if rest.head? = some '.' then rest.tail.dropWhile Char.isDigit else rest
  if whole ++ fraction = [] then none
  else (exponent? rest).map fun e =>
    (Nat.ofDigitChars 10 (whole ++ fraction) 0 : ℚ) * 10 ^ (e - (fraction.length : ℤ))

def radix? (c : Char) : Option ℕ :=
  if c ∈ ['x', 'X'] then some 16
  else if c ∈ ['o', 'O'] then some 8
  else if c ∈ ['b', 'B'] then some 2
  else none

def inRadix? (b : ℕ) (ds : List Char) : Option ℚ :=
  if ds ≠ [] ∧ ds.all (fun c => (Auth.hexDigit c).any (· < b)) then
    some (ds.foldl (fun n c => b * n + (Auth.hexDigit c).getD 0) 0 : ℕ)
  else none

def literal? : List Char → Option ℚ
  | '0' :: c :: t =>
    match radix? c with
    | some b => inRadix? b t
    | none => unsigned? ('0' :: c :: t)
  | t => signed? unsigned? t

/-- `Number(text)` where it is finite. -/
def number (text : String) : Option ℚ :=
  if Auth.trim text.toList = [] then some 0 else (literal? (Auth.trim text.toList)).bind double

theorem plain_of_natural {ds : List Char} {n : ℕ} (h : natural? ds = some n) : Plain ds := by
  unfold natural? at h
  split at h
  · next hds => exact plain_digits fun c hc => List.all_eq_true.mp hds.2 c hc
  · cases h

theorem plain_of_signed {α : Type} [Neg α] {read : List Char → Option α}
    (hread : ∀ t a, read t = some a → Plain t) {t : List Char} {a : α}
    (h : signed? read t = some a) : Plain t := by
  unfold signed? at h
  split at h
  · exact plain_cons (by decide) (hread _ _ h)
  · obtain ⟨b, hb, -⟩ := Option.map_eq_some_iff.mp h
    exact plain_cons (by decide) (hread _ _ hb)
  · exact hread _ _ h

theorem plain_of_exponent {t : List Char} {e : ℤ} (h : exponent? t = some e) : Plain t := by
  cases t with
  | nil => exact plain_nil
  | cons c t =>
    rw [exponent?] at h
    split at h
    · next hletter =>
      have hc : c ∉ '"' :: '\\' :: structural :=
        not_mem_of_any (p :=
          fun c => ['e', 'E'].contains c) (by decide) (List.contains_iff_mem.mpr hletter)
      refine plain_cons hc (plain_of_signed (fun ds a hds => ?_) h)
      obtain ⟨n, hn, -⟩ := Option.map_eq_some_iff.mp hds
      exact plain_of_natural hn
    · cases h

/-- Digits and something plain after them. -/
theorem plain_of_dropWhile {t : List Char} {p : Char → Bool}
    (hp : ('"' :: '\\' :: structural).any p = false) (h : Plain (t.dropWhile p)) : Plain t := by
  rw [← List.takeWhile_append_dropWhile (p := p) (l := t)]
  exact plain_append (fun c hc => not_mem_of_any hp (List.mem_takeWhile_imp hc)) h

theorem plain_of_unsigned {t : List Char} {q : ℚ} (h : unsigned? t = some q) : Plain t := by
  unfold unsigned? at h
  refine plain_of_dropWhile (p := Char.isDigit) (by decide) ?_
  by_cases hdot : (t.dropWhile Char.isDigit).head? = some '.'
  · simp only [hdot, if_true] at h
    split at h
    · cases h
    · obtain ⟨e, he, -⟩ := Option.map_eq_some_iff.mp h
      rw [← List.cons_head?_tail hdot]
      exact plain_cons (by decide)
        (plain_of_dropWhile (p := Char.isDigit) (by decide) (plain_of_exponent he))
  · simp only [hdot, if_false] at h
    split at h
    · cases h
    · obtain ⟨e, he, -⟩ := Option.map_eq_some_iff.mp h
      exact plain_of_exponent he

theorem plain_of_inRadix {b : ℕ} {ds : List Char} {q : ℚ} (h : inRadix? b ds = some q) :
    Plain ds := by
  unfold inRadix? at h
  split at h
  · next hds =>
    intro c hc
    obtain ⟨d, hd, -⟩ := Option.any_eq_true _ _ |>.mp (List.all_eq_true.mp hds.2 c hc)
    have hhex : (Auth.hexDigit c).isSome = true := by
      rw [hd]
      rfl
    exact not_mem_of_any (p := fun c => (Auth.hexDigit c).isSome) (by decide) hhex
  · cases h

theorem plain_of_literal {t : List Char} {q : ℚ} (h : literal? t = some q) : Plain t := by
  unfold literal? at h
  split at h
  · next c t =>
    split at h
    · next b hb =>
      have hc : (radix? c).isSome = true := by
        rw [hb]
        rfl
      refine plain_cons (by decide) (plain_cons ?_ (plain_of_inRadix h))
      exact not_mem_of_any (p := fun c => (radix? c).isSome) (by decide) hc
    · exact plain_of_unsigned h
  · exact plain_of_signed (fun _ _ => plain_of_unsigned) h

theorem plain_of_trim {t : List Char} (h : Plain (Auth.trim t)) : Plain t := by
  have hspace : ('"' :: '\\' :: structural).any Auth.isWhiteSpace = false := by decide
  refine plain_of_dropWhile hspace ?_
  rw [Auth.trim, List.rdropWhile] at h
  have hreverse : Plain (t.dropWhile Auth.isWhiteSpace).reverse :=
    plain_of_dropWhile hspace fun c hc => h c (List.mem_reverse.mpr hc)
  exact fun c hc => hreverse c (List.mem_reverse.mpr hc)

/-- The text of a finite number has no quotes, backslashes and structure. -/
theorem plain_of_number {text : String} {q : ℚ} (h : number text = some q) : Plain text.toList := by
  refine plain_of_trim ?_
  unfold number at h
  split at h
  · next hempty =>
    rw [hempty]
    exact plain_nil
  · obtain ⟨q', hq, -⟩ := Option.bind_eq_some_iff.mp h
    exact plain_of_literal hq

theorem toNat_digit {c : Char} (h : c.isDigit = true) : 48 ≤ c.toNat ∧ c.toNat ≤ 57 := by
  simpa [Char.isDigit, UInt32.le_iff_toNat_le] using h

theorem trim_digits {ds : List Char} (h : ∀ c ∈ ds, c.isDigit = true) : Auth.trim ds = ds := by
  have hspace : ∀ c ∈ ds, ¬ Auth.isWhiteSpace c = true := by
    intro c hc hspace
    obtain ⟨hlow, hhigh⟩ := toNat_digit (h c hc)
    simp [Auth.isWhiteSpace] at hspace
    omega
  have hleft : ds.dropWhile Auth.isWhiteSpace = ds := by
    cases ds with
    | nil => rfl
    | cons c ds => exact List.dropWhile_cons_of_neg (hspace c List.mem_cons_self)
  rw [Auth.trim, hleft, List.rdropWhile_eq_self_iff]
  exact fun hne => hspace _ (List.getLast_mem hne)

theorem unsigned_digits {ds : List Char} (hne : ds ≠ []) (h : ∀ c ∈ ds, c.isDigit = true) :
    unsigned? ds = some (Nat.ofDigitChars 10 ds 0 : ℚ) := by
  have htake : ds.takeWhile Char.isDigit = ds := List.takeWhile_eq_self_iff.mpr h
  have hdrop : ds.dropWhile Char.isDigit = [] := List.dropWhile_eq_nil_iff.mpr h
  simp [unsigned?, htake, hdrop, hne, exponent?]

/-- Digits start with no sign and no radix. -/
theorem literal_digits {ds : List Char}
    (h : ∀ c ∈ ds, c.isDigit = true) : literal? ds = unsigned? ds := by
  unfold literal?
  split
  · next c t =>
    have hc := h c (List.mem_cons_of_mem _ List.mem_cons_self)
    have hradix : radix? c = none := by
      rw [radix?, if_neg (not_mem_of_any (by decide) hc), if_neg (not_mem_of_any (by decide) hc),
        if_neg (not_mem_of_any (by decide) hc)]
    rw [hradix]
  · unfold signed?
    split
    · exact absurd (h '+' List.mem_cons_self) (by decide)
    · exact absurd (h '-' List.mem_cons_self) (by decide)
    · rfl

theorem number_toString {n : ℕ} (h : n < 2 ^ 53) : number (toString n) = some (n : ℚ) := by
  have hdigits : ∀ c ∈ (toString n).toList, c.isDigit = true :=
    fun c hc => Import.isDigit_of_mem_toString hc
  have hne : (toString n).toList ≠ [] := by
    rw [Import.toList_toString]
    exact Nat.toDigits_ne_nil
  have hvalue : Nat.ofDigitChars 10 (toString n).toList 0 = n := by
    rw [Import.toList_toString, Nat.ofDigitChars_ten_toDigits]
  rw [number, trim_digits hdigits, if_neg hne, literal_digits hdigits,
    unsigned_digits hne hdigits, hvalue]
  exact double_intCast (n := n) (by rw [Nat.abs_cast]; exact_mod_cast h)

end Numbers

section Verifying

/-- What `node:crypto` does. -/
structure Crypto where
  fromBase64 : String → List UInt8
  /-- The HMAC-SHA256 of a text, in base64. -/
  digest : List UInt8 → String → String

/-- Seconds. -/
def tolerance : ℚ := 5 * 60

structure SvixHeaders where
  id : Option String
  timestamp : Option String
  signature : Option String
deriving DecidableEq, Repr

inductive SvixReason
  | missingHeader
  | notTimestamp
  | outsideTolerance (driftSeconds : Option ℚ)
  | noMatch
deriving DecidableEq, Repr

variable (c : Crypto)

def decodeSecret (secret : String) : List UInt8 :=
  c.fromBase64 (if "whsec_".toList.isPrefixOf secret.toList then
    String.ofList (secret.toList.drop "whsec_".length) else secret)

/-- `${id}.${timestamp}.${rawBody}`. -/
def payload (id timestamp rawBody : String) : String := id ++ "." ++ timestamp ++ "." ++ rawBody

/-- Whether an entry of the header is of version v1 and has the expected value. -/
def entryMatches (expected : String) (entry : List Char) : Bool :=
  match entry.splitOn ',' with
  | version :: value :: _ => version = ['v', '1'] ∧ value ≠ [] ∧ value = expected.toList
  | _ => false

/-- `Math.abs(Math.floor(now.getTime() / 1000) - sentAt)`. -/
def driftSeconds (now : Date) (sentAt : ℚ) : Option ℚ := double |(now / 1000 : ℤ) - sentAt|

def verifySvixSignature (rawBody : String) (headers : SvixHeaders) (secret : String) (now : Date) :
    Except SvixReason Unit :=
  match headers.id.filter (· ≠ ""), headers.timestamp.filter (· ≠ ""),
    headers.signature.filter (· ≠ "") with
  | some id, some timestamp, some signature =>
    match number timestamp with
    | none => .error .notTimestamp
    | some sentAt =>
      if (driftSeconds now sentAt).all (tolerance < ·) then .error
        (.outsideTolerance (driftSeconds now sentAt))
      else
        let expected := c.digest (decodeSecret c secret) (payload id timestamp rawBody)
        if (signature.toList.splitOn ' ').any (entryMatches expected) then .ok () else .error
          .noMatch
  | _, _, _ => .error .missingHeader

end Verifying

section Posts

/-- How the body of a post is read: as JSON in UTF-8, in some other way, as a form
say, or not at all. Where it is read its bytes are kept. -/
inductive ContentType
  | json | other | unread
deriving DecidableEq, Repr

/-- What someone posts, with the secret set and the clock when it comes in. -/
structure Post where
  contentType : ContentType
  body : String
  headers : SvixHeaders
  webhookSecret : Option String
  now : Date
  /-- What a date can be. -/
  range : |now| ≤ 8640000000000000

/-- What the body parsers make of a text, if they accept it. -/
structure Parsers where
  json : String → Option ResendEvent
  other : String → Option ResendEvent

variable (c : Crypto) (parsers : Parsers)

def Post.rawBody (post : Post) : Option String :=
    if post.contentType = .unread then none else some post.body

/-- The parsed body. An empty one says nothing. -/
def Post.parsed (post : Post) : Option ResendEvent :=
  match post.contentType with
  | .json => if post.body = "" then some {} else parsers.json post.body
  | .other => if post.body = "" then some {} else parsers.other post.body
  | .unread => some {}

def Post.verified (post : Post) : Bool :=
  match post.webhookSecret, post.rawBody with
  | some secret, some rawBody => (verifySvixSignature c rawBody post.headers secret post.now).isOk
  | _, _ => false

/-- The request that the controller gets. A body that the parsers refuse does not reach it. -/
def Post.request (post : Post) : Option ResendRequest :=
  (post.parsed parsers).map fun body =>
    { webhookSecret := post.webhookSecret, rawBody := post.rawBody, verified :=
      post.verified c, body := body,
      now := post.now }

inductive MailEvent
  | create (id : LogId)
  | markSent (id : LogId) (messageId : String) (now : Date)
  | markFailed (id : LogId) (error : String)
  | post (post : Post)

def MailEvent.step : MailEvent → Option MailStep
  | .create id => some (.create id)
  | .markSent id messageId now => some (.markSent id messageId now)
  | .markFailed id error => some (.markFailed id error)
  | .post posted => (posted.request c parsers).map .resend

def stepsOf (events : List MailEvent) : List MailStep := events.filterMap fun e => e.step c parsers

end Posts

section Signing

/-- A message of the provider. -/
structure Message where
  id : String
  /-- Seconds. -/
  timestamp : ℕ
  body : String
  id_ne : id ≠ ""
  id_dotless : '.' ∉ id.toList
  timestamp_lt : timestamp < 2 ^ 52
  body_json : IsJson body.toList
  body_object : body.toList.head? = some '{'

def Message.payload (m : Message) : String := Emails.payload m.id (toString m.timestamp) m.body

/-- What the signature of a post is compared with. -/
def Post.payload (post : Post) : String :=
  Emails.payload (post.headers.id.getD "") (post.headers.timestamp.getD "") post.body

variable (c : Crypto) (parsers : Parsers) (signed : Set Message)

/-- Whether a post bears a signature of its own text. -/
def Post.vouched (post : Post) : Bool :=
  ((post.headers.signature.getD "").toList.splitOn ' ').any
    (entryMatches (c.digest (decodeSecret c (post.webhookSecret.getD "")) post.payload))

/-- Who does not know the secret can bring signatures of signed texts only. -/
def Unforged (post : Post) : Prop :=
  given post.webhookSecret = true → post.vouched c = true → ∃ m ∈ signed, post.payload = m.payload

/-- A byte order mark, perhaps, and a JSON text. -/
def MarkedJson (text : String) : Prop :=
    ∃ mark ∈ [[], ['\uFEFF']], ∃ t, text.toList = mark ++ t ∧ IsJson t

/-- A post is a message with its signature, in time. -/
structure Post.Delivers (post : Post) (m : Message) : Prop where
  id : post.headers.id = some m.id
  timestamp : post.headers.timestamp = some (toString m.timestamp)
  body : post.body = m.body
  inTime : |post.now / 1000 - m.timestamp| ≤ 300
  secret : given post.webhookSecret = true
  vouched : post.vouched c = true

variable {c : Crypto} {parsers : Parsers} {signed : Set Message} {post : Post} {m : Message}
  {request : ResendRequest}

/-- When a signature is found valid. -/
theorem verify_ok_iff {rawBody secret : String} {headers : SvixHeaders} {now : Date} :
    (verifySvixSignature c rawBody headers secret now).isOk = true ↔
      ∃ id timestamp signature sentAt, headers = ⟨some id, some timestamp, some signature⟩ ∧
        id ≠ "" ∧ timestamp ≠ "" ∧ signature ≠ "" ∧ number timestamp = some sentAt ∧
        (driftSeconds now sentAt).all (tolerance < ·) = false ∧
        (signature.toList.splitOn ' ').any
          (entryMatches (c.digest (decodeSecret c secret) (Emails.payload id timestamp rawBody))) =
          true := by
  constructor
  · intro h
    obtain ⟨id, timestamp, signature⟩ := headers
    unfold verifySvixSignature at h
    split at h
    · next id timestamp signature hid htimestamp hsignature =>
      obtain ⟨rfl, hidne⟩ := Option.filter_eq_some_iff.mp hid
      obtain ⟨rfl, hne⟩ := Option.filter_eq_some_iff.mp htimestamp
      obtain ⟨rfl, hsigned⟩ := Option.filter_eq_some_iff.mp hsignature
      split at h
      · cases h
      · next sentAt hnumber =>
        split at h
        · cases h
        · next hdrift =>
          simp only at h
          split at h
          · next hany =>
            exact ⟨id, timestamp, signature, sentAt, rfl, of_decide_eq_true hidne,
              of_decide_eq_true hne,
              of_decide_eq_true hsigned, hnumber, eq_false_of_ne_true hdrift, hany⟩
          · cases h
    · cases h
  · rintro ⟨id, timestamp, signature, sentAt, rfl, hid, htimestamp, hsignature, hnumber,
      hdrift, hany⟩
    have hgiven : ∀ {text : String}, text ≠ "" → (some text).filter (· ≠ "") = some text :=
      fun h => Option.filter_eq_some_iff.mpr ⟨rfl, decide_eq_true h⟩
    simp only [verifySvixSignature, hgiven hid, hgiven htimestamp, hgiven hsignature, hnumber,
      hdrift, hany]
    rfl

end Signing

section Accepting

variable {c : Crypto} {parsers : Parsers} {signed : Set Message} {post : Post} {m : Message}
  {request : ResendRequest}

theorem toList_payload (id timestamp rawBody : String) :
    (payload id timestamp rawBody).toList = id.toList ++ '.' ::
    (timestamp.toList ++ '.' :: rawBody.toList) := by
  simp [payload]

theorem seconds_small {now : ℤ} {timestamp : ℕ} (hrange : |now| ≤ 8640000000000000)
    (hlt : timestamp < 2 ^ 52) :
    |now / 1000 - (timestamp : ℤ)| < 2 ^ 53 := by
  have hnow := abs_le.mp hrange
  rw [abs_lt]
  omega

/-- A message in time is so in the arithmetic of doubles too. -/
theorem drift_in_time (post : Post) (m : Message) :
    (driftSeconds post.now m.timestamp).all (tolerance < ·) = false ↔
    |post.now / 1000 - m.timestamp| ≤ 300 := by
  have hsmall := seconds_small post.range m.timestamp_lt
  have hdouble :
    driftSeconds post.now m.timestamp = some ((|post.now / 1000 - (m.timestamp : ℤ)| : ℤ) : ℚ) := by
    rw [← double_intCast (by rwa [abs_abs]), driftSeconds]
    push_cast
    rfl
  rw [hdouble, Option.all_some, decide_eq_false_iff_not, not_lt, tolerance]
  norm_num
  exact_mod_cast Iff.rfl

theorem Message.dotless (m : Message) : '.' ∉ (toString m.timestamp).toList := by
  intro h
  have hdigit := Import.isDigit_of_mem_toString h
  exact absurd hdigit (by decide)

theorem Message.timestamp_ne (m : Message) : toString m.timestamp ≠ "" := by
  intro h
  have hnil : (toString m.timestamp).toList = [] := by
    rw [h]
    rfl
  rw [Import.toList_toString] at hnil
  exact Nat.toDigits_ne_nil hnil

theorem Message.body_ne (m : Message) : m.body ≠ "" := by
  intro h
  have hbrace := m.body_object
  rw [h] at hbrace
  cases hbrace

/-- An empty header has no signature in it. -/
theorem signature_of_vouched (h : post.vouched c = true) :
    ∃ signature, post.headers.signature = some signature ∧ signature ≠ "" := by
  have hempty :
    ∀ expected, (("" : String).toList.splitOn ' ').any (entryMatches expected) = false :=
    fun _ => rfl
  cases hsignature : post.headers.signature with
  | none =>
    rw [Post.vouched, hsignature] at h
    exact absurd ((hempty _).symm.trans h) Bool.false_ne_true
  | some signature =>
    refine ⟨signature, rfl, fun hne => ?_⟩
    rw [Post.vouched, hsignature, hne] at h
    exact absurd ((hempty _).symm.trans h) Bool.false_ne_true

theorem some_of_given {text : Option String} (h : given text = true) :
    ∃ t, text = some t ∧ t ≠ "" := by
  cases text with
  | none => cases h
  | some t => exact ⟨t, rfl, by simpa [given] using h⟩

/-- What a valid signature vouches for is a message, if its text is a number and a JSON text. -/
theorem delivers_of_payload {id timestamp : String} {sentAt : ℚ}
    (hnumber : number timestamp = some sentAt)
    (hne : timestamp ≠ "") (hjson : MarkedJson post.body)
    (hpayload : payload id timestamp post.body = m.payload) :
    id = m.id ∧ timestamp = toString m.timestamp ∧ post.body = m.body := by
  obtain ⟨mark, hmark, t, hbody, ht⟩ := hjson
  have hjoin := congrArg String.toList hpayload
  rw [Message.payload, toList_payload, toList_payload, hbody] at hjoin
  have hlead : ∀ c ∈ mark, c ∉ special := by
    simp only [List.mem_cons, List.not_mem_nil, or_false] at hmark
    rcases hmark with rfl | rfl
    · exact fun c hc => absurd hc List.not_mem_nil
    · intro c hc
      rw [List.mem_singleton.mp hc]
      decide
  have hpiece : timestamp.toList ≠ [] := fun h => hne (String.toList_eq_nil_iff.mp h)
  obtain ⟨hid, htime, hrest⟩ := cut_unique hjoin m.id_dotless m.dotless m.body_json m.body_object
    (plain_of_number hnumber) hpiece hlead ht
  exact ⟨String.toList_injective hid, String.toList_injective htime,
    String.toList_injective (hbody.trans hrest)⟩

/-- A request is accepted if the secret is set, the body kept and the signature valid. -/
theorem resend_isOk {log : List EmailLog} :
    (resend request log).1.isOk = true ↔
      given request.webhookSecret = true ∧ given request.rawBody = true ∧
      request.verified = true := by
  unfold resend
  by_cases hsecret : given request.webhookSecret = true
  · by_cases hraw : given request.rawBody = true
    · by_cases hverified : request.verified = true
      · simp only [hsecret, hraw, hverified]
        simp only [not_true, if_false, and_self, iff_true]
        split <;> rfl
      · simp [hsecret, hraw, hverified, Except.isOk, Except.toBool]
    · simp [hsecret, hraw, Except.isOk, Except.toBool]
  · simp [hsecret, Except.isOk, Except.toBool]

/-- A post in JSON is accepted exactly if it is a message of the provider with its
signature, in time: no other cut of a signed text passes for one. -/
theorem resend_ok_iff {log : List EmailLog} (hjson : post.contentType = .json)
    (hparser : ∀ text event, parsers.json text = some event → MarkedJson text)
    (hunforged : Unforged c signed post) (hrequest : post.request c parsers = some request) :
    (resend request log).1.isOk = true ↔ ∃ m ∈ signed, post.Delivers c m := by
  obtain ⟨body, hparsed, rfl⟩ := Option.map_eq_some_iff.mp hrequest
  have hraw : post.rawBody = some post.body := by
    rw [Post.rawBody, hjson]
    rfl
  rw [resend_isOk, hraw]
  constructor
  · intro h
    have hsecret : given post.webhookSecret = true := h.1
    obtain ⟨-, hgiven, hverified⟩ := h
    obtain ⟨secret, hsome, -⟩ := some_of_given hsecret
    simp only [Post.verified, hsome, hraw] at hverified
    obtain ⟨id, timestamp, signature, sentAt, hheaders, -, hne, -, hnumber, hdrift, hany⟩ :=
      verify_ok_iff.mp hverified
    have hvouched : post.vouched c = true := by
      rw [Post.vouched, Post.payload, hheaders, hsome]
      exact hany
    obtain ⟨m, hm, hpayload⟩ := hunforged hsecret hvouched
    rw [Post.payload, hheaders] at hpayload
    have hbody : MarkedJson post.body := by
      rw [Post.parsed, hjson] at hparsed
      have hbodyne : post.body ≠ "" := by simpa [given] using hgiven
      exact hparser _ _ (by simpa [hbodyne] using hparsed)
    obtain ⟨rfl, rfl, hsame⟩ := delivers_of_payload hnumber hne hbody hpayload
    rw [number_toString (m.timestamp_lt.trans (by norm_num))] at hnumber
    cases hnumber
    exact ⟨m, hm, by
      rw [hheaders], by rw [hheaders], hsame, (drift_in_time post m).mp hdrift, hsecret, hvouched⟩
  · rintro ⟨m, -, hm⟩
    obtain ⟨secret, hsome, -⟩ := some_of_given hm.secret
    obtain ⟨signature, hsignature, hsigned⟩ := signature_of_vouched hm.vouched
    have hheaders : post.headers = ⟨some m.id, some (toString m.timestamp), some signature⟩ := by
      rw [← hm.id, ← hm.timestamp, ← hsignature]
    have hvouched := hm.vouched
    rw [Post.vouched, Post.payload, hheaders, hsome] at hvouched
    refine ⟨hm.secret, ?_, ?_⟩
    · simpa [given, hm.body] using m.body_ne
    · simp only [Post.verified, hsome, hraw]
      exact verify_ok_iff.mpr ⟨m.id, toString m.timestamp, signature, m.timestamp, hheaders,
        m.id_ne, m.timestamp_ne,
        hsigned, number_toString (m.timestamp_lt.trans (by norm_num)),
          (drift_in_time post m).mpr hm.inTime, hvouched⟩

end Accepting

section Known

def stringText (text : String) : List Char := '"' :: (text.toList ++ ['"'])

def pairText (key : String) (value : List Char) : List Char :=
    '"' :: (key.toList ++ '"' :: ':' :: value)

/-- `{"type":…,"data":{"email_id":"m1"}}`. -/
def reportText (type : String) : List Char :=
  '{' :: (pairText "type" (stringText type) ++
    ',' :: pairText "data" ('{' :: (pairText "email_id" (stringText "m1") ++ ['}'])) ++ ['}'])

theorem isJson_reportText {type : String} (h : Chars type.toList) : IsJson (reportText type) := by
  have hkey : ∀ key ∈ ["type", "data", "email_id", "m1"], Chars key.toList := by
    intro key hkey
    refine chars_of_plain ?_
    simp only [List.mem_cons, List.not_mem_nil, or_false] at hkey
    rcases hkey with rfl | rfl | rfl | rfl <;> simp
  have hdata : IsJson ('{' :: (pairText "email_id" (stringText "m1") ++ ['}'])) :=
    isJson_of_value (.object (.members_one (derives_pair (hkey _ (by simp))
      (isJson_of_value (.string (hkey _ (by simp)))))))
  exact isJson_of_value
    (.object (.members_more (derives_pair (hkey _ (by simp)) (isJson_of_value (.string h)))
    (.members_one (derives_pair (hkey _ (by simp)) hdata))))

theorem isJson_bounced : IsJson (reportText "email.bounced") :=
  isJson_reportText (chars_of_plain (by simp))

theorem isJson_delivered : IsJson (reportText "email.delivered") :=
  isJson_reportText (chars_of_plain (by simp))

/-- The provider tells that a mail bounced. -/
def bounce : Message where
  id := "msg_1"
  timestamp := 1700000000
  body := String.ofList (reportText "email.bounced")
  id_ne := by decide
  id_dotless := by decide
  timestamp_lt := by norm_num
  body_json := by rw [String.toList_ofList]; exact isJson_bounced
  body_object := by rw [String.toList_ofList]; rfl

/-- The secret in bytes. -/
def knownKey : List UInt8 :=
  [49, 242, 144, 246, 191, 6, 41, 138, 171, 79, 8, 212, 60, 63, 8, 44, 246, 72, 163, 98, 218, 45,
    164, 176]

/-- The one secret and the two texts that are asked for. -/
def knownCrypto : Crypto where
  fromBase64 text := if text = "MfKQ9r8GKYqrTwjUPD8ILPZIo2LaLaSw" then knownKey else []
  digest key text :=
    if key = knownKey ∧ text = bounce.payload then "miwtkOXc+fDfBMi3lMR3ozH3RvF0cdQFB/882CcFhZg="
    else if key = knownKey ∧
      text = payload "msg_1" "1700000000" (String.ofList (reportText "email.delivered")) then
      "ELRBMGqj2nLjxK8NTerBIdVAib+SvvIIcAtXgGoy8zk="
    else ""

def knownParsers : Parsers where
  json text :=
    if text = String.ofList (reportText "email.bounced") then
      some { type := some "email.bounced", email_id := some "m1" }
    else if text = String.ofList (reportText "email.delivered") then
      some { type := some "email.delivered", email_id := some "m1" }
    else none
  other _ := none

theorem markedJson_known : ∀ text event, knownParsers.json text = some event → MarkedJson text := by
  intro text event h
  simp only [knownParsers] at h
  split at h
  · next htext => exact ⟨[], by simp, _, by rw [htext, String.toList_ofList]; rfl, isJson_bounced⟩
  · split at h
    · next htext =>
        exact ⟨[], by simp, _, by rw [htext, String.toList_ofList]; rfl, isJson_delivered⟩
    · cases h

/-- A body under the headers of the bounce, a minute later. -/
def postedAs (type : String) : Post where
  contentType := .json
  body := String.ofList (reportText type)
  headers :=
    ⟨some "msg_1", some "1700000000", some "v1,miwtkOXc+fDfBMi3lMR3ozH3RvF0cdQFB/882CcFhZg="⟩
  webhookSecret := some "whsec_MfKQ9r8GKYqrTwjUPD8ILPZIo2LaLaSw"
  now := 1700000060000
  range := by norm_num [abs_le]

theorem vouched_bounced : (postedAs "email.bounced").vouched knownCrypto = true := by
  have hkey : decodeSecret knownCrypto "whsec_MfKQ9r8GKYqrTwjUPD8ILPZIo2LaLaSw" = knownKey := by
    decide +kernel
  have hpayload : (postedAs "email.bounced").payload = bounce.payload := rfl
  have hdigest : knownCrypto.digest knownKey bounce.payload =
      "miwtkOXc+fDfBMi3lMR3ozH3RvF0cdQFB/882CcFhZg=" := by
    dsimp only [knownCrypto]
    exact if_pos ⟨rfl, rfl⟩
  have hsecret : (postedAs "email.bounced").webhookSecret.getD "" =
      "whsec_MfKQ9r8GKYqrTwjUPD8ILPZIo2LaLaSw" := rfl
  rw [Post.vouched, hpayload, hsecret, hkey, hdigest]
  decide +kernel

theorem not_vouched_delivered : ¬ (postedAs "email.delivered").vouched knownCrypto = true := by
  decide +kernel

theorem unforged_bounced : Unforged knownCrypto {bounce} (postedAs "email.bounced") :=
  fun _ _ => ⟨bounce, rfl, rfl⟩

theorem unforged_delivered : Unforged knownCrypto {bounce} (postedAs "email.delivered") :=
  fun _ h => absurd h not_vouched_delivered

theorem delivers_bounced : (postedAs "email.bounced").Delivers knownCrypto bounce where
  id := rfl
  timestamp := by decide
  body := rfl
  inTime := by decide
  secret := by decide
  vouched := vouched_bounced

theorem parsed_bounced : (postedAs "email.bounced").parsed knownParsers =
    some { type := some "email.bounced", email_id := some "m1" } :=
  rfl

theorem request_bounced :
    ∃ request, (postedAs "email.bounced").request knownCrypto knownParsers = some request :=
  ⟨_, rfl⟩

theorem request_delivered :
    ∃ request, (postedAs "email.delivered").request knownCrypto knownParsers = some request :=
  ⟨_, rfl⟩

/-- The bounce is accepted, and a delivery in its place is not. -/
theorem resend_ok_iff_bounced :
    (∃ request, (postedAs "email.bounced").request knownCrypto knownParsers = some request ∧
      (resend request []).1.isOk = true) ∧
    ∃ request, (postedAs "email.delivered").request knownCrypto knownParsers = some request ∧
      ¬ (resend request []).1.isOk = true := by
  obtain ⟨request, hrequest⟩ := request_bounced
  obtain ⟨forged, hforged⟩ := request_delivered
  refine ⟨⟨request, hrequest, ?_⟩, forged, hforged, fun hok => ?_⟩
  · exact (resend_ok_iff rfl markedJson_known unforged_bounced hrequest).mpr ⟨bounce, rfl,
      delivers_bounced⟩
  · obtain ⟨m, hm, hdelivers⟩ :=
      (resend_ok_iff rfl markedJson_known unforged_delivered hforged).mp hok
    obtain rfl : m = bounce := hm
    exact not_vouched_delivered hdelivers.vouched

end Known

end EventLens.Emails
