import MintBot.Store.Encoding

/-!
# Secret-like keys

The encoders of the canonical store and of the phase-2 store test the written text for a
listed name in front of a colon.  A key stands between quotation marks, so the colon behind
it never follows its last letter: what the test sees are names and colons inside one string
or one key.
-/

namespace MintBot

open Json Regex

/-! ## The phase-2 encoder -/

/-- `["'](?:api[_-]?key|token|secret|authorization|calldata|raw[_-]?transaction)["']\s*:` -/
def rawField : Regex CodeUnit :=
  let mark := set fun c => c = quoteMark || c = 0x27
  all [mark, any [all [word "api", wordBreak, word "key"], word "token", word "secret",
    word "authorization", word "calldata", all [word "raw", wordBreak, word "transaction"]],
    mark, star whiteSpace, unit colon]

/-- `[^…]` for white space and the given units. -/
def noneOf (units : List CodeUnit) : Regex CodeUnit :=
  set fun c => !(whiteSpace.accepts [c] || units.contains c)

/-- `https?:\/\/[^\s/]+(?::[^\s/@]+)?@[^\s]+` -/
def credentialUrl : Regex CodeUnit :=
  all [word "http", optional (word "s"), word "://", plus (noneOf [0x2f]),
    optional (all [unit colon, plus (noneOf [0x2f, 0x40])]), unit 0x40, plus (noneOf [])]

/-- `0x[0-9a-f]{64}` -/
def hashText : Regex CodeUnit :=
  all (word "0x" :: List.replicate 64 (set fun c => (hex? c).isSome))

/-- A bigint is written as its digits alone. -/
def normalizeLeaf : CanonicalLeaf → Scalar
  | .scalar value => value
  | .bigint value => .string (bigintDigits value)

def readModelRefusal : Error :=
  "secret-like or raw provider values must remain outside read models"

section Phase2

-- The collation of the host, by which keys are sorted.
variable (localeCompare : Text → Text → Ordering)

/-- Members in the order of their keys. -/
def KeyLe (left right : Text × Document Scalar) : Prop :=
  localeCompare left.1 right.1 ≠ .gt

instance : DecidableRel (KeyLe localeCompare) :=
  fun _ _ => inferInstanceAs (Decidable (_ ≠ _))

def normalize : Document CanonicalLeaf → Document Scalar :=
  Document.fold (fun leaf => .leaf (normalizeLeaf leaf)) .array fun members =>
    .object (fromEntries (members.insertionSort (KeyLe localeCompare)))

/-- `encode` of the phase-2 store. -/
def phase2Encode (value : Option CanonicalValue) : Except Error Text :=
  let result :=
    match value with
    | none => ascii "\x7b\x7d"
    | some value => (normalize localeCompare value.document).text
  if secretLike.search result || rawField.search result || credentialUrl.search result ||
      hashText.search result then
    .error readModelRefusal
  else .ok result

end Phase2

/-! ## Where the test looks -/

/-- The key ends with one of the listed names. -/
def EndsWithSecretName (key : Text) : Prop :=
  ∃ front name, name ∈ secretName.language ∧ key = front ++ name

def CanonicalValue.HasSecretKey (value : CanonicalValue) : Prop :=
  ∃ key ∈ value.document.keys, EndsWithSecretName key

/-- The strings and the keys of a value. -/
def Writes (t : Document CanonicalLeaf) (text : Text) : Prop :=
  .scalar (.string text) ∈ t.leaves ∨ text ∈ t.keys

/-- Some string or key, in its JSON form, has a listed name in front of a colon. -/
def CanonicalValue.NamesSecretInText (value : CanonicalValue) : Prop :=
  ∃ text, Writes value.document text ∧ secretLike.Found (quoteBody text)

theorem secretLike_inLiterals : InLiterals secretLike where
  colonNeeded := by
    intro text accepted
    simp only [secretLike, mem_all_cons, mem_unit] at accepted
    obtain ⟨_, -, _, ⟨_, -, _, ⟨_, rfl, _, -, rfl⟩, rfl⟩, rfl⟩ := accepted
    simp
  colonInside := by decide
  noQuote := by decide
  noComma := by decide
  noBracket := by decide
  noBrace := by decide

/-- The text of a bigint holds no name and no colon. -/
theorem not_found_bigint (value : Int) :
    ¬ secretLike.Found (quoteBody (bigintDigits value ++ [0x6e])) := by
  have accepted : bigintDigits value ++ [0x6e] ∈ bigintLiteral.language :=
    mem_bigintLiteral.2 ⟨_, _, naturalDigits_ne_nil value.natAbs,
      by rw [bigintDigits, List.append_assoc]⟩
  rw [quoteBody_bigintLiteral accepted]
  apply not_found_of_needs secretLike_inLiterals.colonNeeded
  have digits := not_mem_digits (c := colon) (by decide) (naturalDigits value.natAbs)
  have sign : colon ∉ signText (decide (value < 0)) := by
    cases decide (value < 0) <;> decide
  simp only [bigintDigits, List.mem_append, not_or]
  exact ⟨⟨sign, digits⟩, by decide⟩

/-- The canonical encoder refuses exactly the values that name a secret inside a text. -/
theorem secretLike_search_iff (value : CanonicalValue) :
    secretLike.search (value.document.map replacer).text = true ↔
      value.NamesSecretInText := by
  rw [search_iff, found_text secretLike_inLiterals]
  constructor
  · rintro ⟨text, literal | key, found⟩
    · obtain ⟨leaf, member, same⟩ := Document.mem_leaves_map.1 literal
      match leaf with
      | .scalar value =>
        rw [replacer] at same
        exact ⟨text, Or.inl (same ▸ member), found⟩
      | .bigint value =>
        rw [replacer, Scalar.string.injEq] at same
        exact absurd (same ▸ found) (not_found_bigint value)
    · exact ⟨text, Or.inr (Document.mem_keys_map.1 key), found⟩
  · rintro ⟨text, literal | key, found⟩
    · exact ⟨text, Or.inl (Document.mem_leaves_map.2 ⟨_, literal, rfl⟩), found⟩
    · exact ⟨text, Or.inr (Document.mem_keys_map.2 key), found⟩

/-- Normalising keeps every string and every key. -/
theorem literal_normalize (localeCompare : Text → Text → Ordering)
    {t : Document CanonicalLeaf} (proper : t.Proper) {text : Text} (written : Writes t text) :
    (normalize localeCompare t).Literal text := by
  induction proper with
  | leaf value =>
    simp only [Writes, Document.leaves_leaf, Document.keys_leaf, List.mem_singleton,
      List.not_mem_nil, or_false] at written
    subst written
    exact Or.inl (List.mem_singleton_self _)
  | array items _ ih =>
    rw [normalize, Document.fold_array, Document.literal_array]
    simp only [Writes, Document.mem_leaves_array, Document.mem_keys_array] at written
    rcases written with ⟨item, member, inside⟩ | ⟨item, member, inside⟩
    · exact ⟨_, List.mem_map_of_mem member, ih item member (Or.inl inside)⟩
    · exact ⟨_, List.mem_map_of_mem member, ih item member (Or.inr inside)⟩
  | object members own _ ih =>
    have sorted := List.perm_insertionSort (KeyLe localeCompare)
      (members.map (Document.onValue (normalize localeCompare)))
    have distinct := (sorted.map Prod.fst).nodup_iff.2
      (by rw [List.map_map]; exact own.distinct)
    have entries := (fromEntries_perm distinct).trans sorted
    rw [normalize, Document.fold_object, Document.literal_object]
    simp only [Writes, Document.mem_leaves_object, Document.mem_keys_object] at written
    have kept (member) (known : member ∈ members) :=
      entries.mem_iff.2 (List.mem_map_of_mem
        (f := Document.onValue (normalize localeCompare)) known)
    rcases written with ⟨member, known, inside⟩ | ⟨member, known, rfl | inside⟩
    · exact ⟨_, kept member known, Or.inr (ih member known (Or.inl inside))⟩
    · exact ⟨_, kept member known, Or.inl rfl⟩
    · exact ⟨_, kept member known, Or.inr (ih member known (Or.inr inside))⟩

/-- The phase-2 encoder refuses those values as well. -/
theorem phase2Encode_refuses (localeCompare : Text → Text → Ordering) {value : CanonicalValue}
    (named : value.NamesSecretInText) :
    phase2Encode localeCompare (some value) = .error readModelRefusal := by
  obtain ⟨text, written, found⟩ := named
  have seen : secretLike.search (normalize localeCompare value.document).text = true := by
    rw [search_iff, found_text secretLike_inLiterals]
    exact ⟨text, literal_normalize localeCompare value.proper written, found⟩
  simp only [phase2Encode, seen, Bool.true_or, ↓reduceIte]

/-- A value with a secret-like key is refused by both encoders exactly when a name and a colon
stand together inside one of its strings or keys. -/
theorem secret_keys_refused_iff (localeCompare : Text → Text → Ordering)
    (value : CanonicalValue) :
    (value.HasSecretKey →
      encode (some value) = .error "SECRET_LIKE_STATE_REJECTED" ∧
        phase2Encode localeCompare (some value) = .error readModelRefusal) ↔
    (value.HasSecretKey → value.NamesSecretInText) := by
  refine imp_congr_right fun _ => ?_
  rw [← secretLike_search_iff]
  constructor
  · rintro ⟨refused, -⟩
    by_contra clean
    rw [encode] at refused
    simp only [clean, ↓reduceIte, Bool.false_eq_true] at refused
    cases refused
  · intro seen
    refine ⟨?_, phase2Encode_refuses localeCompare ((secretLike_search_iff value).1 seen)⟩
    simp only [encode, seen, ↓reduceIte]

/-- `{"password": "hunter2"}` -/
def passwordValue : CanonicalValue where
  document := .object [(ascii "password", .leaf (.scalar (.string (ascii "hunter2"))))]
  proper := .object _ ⟨by decide, rfl⟩ (List.forall_mem_singleton.2 (.leaf _))

/-- A password is stored under its own key. -/
theorem password_accepted :
    ¬ ∀ value : CanonicalValue, value.HasSecretKey →
      encode (some value) = .error "SECRET_LIKE_STATE_REJECTED" := by
  intro refused
  have secret : passwordValue.HasSecretKey := by
    refine ⟨ascii "password", ?_, [], ascii "password", ?_, rfl⟩
    · exact Document.mem_keys_object.2 ⟨_, List.mem_singleton_self _, Or.inl rfl⟩
    · exact (accepts_iff _ _).1 (by decide +kernel)
  have stored : encode (some passwordValue) =
      .ok (ascii "\x7b\x22password\x22:\x22hunter2\x22\x7d") := by
    decide +kernel
  rw [refused passwordValue secret] at stored
  exact nomatch stored

end MintBot
