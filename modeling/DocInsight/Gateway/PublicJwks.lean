import DocInsight.Gateway.Auth
import DocInsight.Gateway.Responses

/-! The key set that a gateway serves of its own: the same signing keys as the document it
was given, rebuilt from the public parameters and nothing else. -/
namespace DocInsight.Gateway

open DocInsight.Python

/-- How the token library writes the public key of a loaded key as a document. -/
structure KeyWriter (Key Public : Type) extends KeyLibrary Key where
  publicKey : Key → Public
  toJwk : Public → Json

variable {Key Public : Type} (library : KeyWriter Key Public)

/-- `{name: raw[name] for name in ("kty", "n", "e")} | {"kid": kid}`. -/
def publicItem (kid : Text) (key : Key) : Except Raised Json := do
  let raw := library.toJwk (library.publicKey key)
  let kty ← raw.item "kty"
  let n ← raw.item "n"
  let e ← raw.item "e"
  return .dict [(text "kty", kty), (text "n", n), (text "e", e), (text "kid", .str kid)]

/-- Rebuild the validated key set using only public RSA parameters. -/
def publicJwks (document : Json) : Except Raised Json := do
  let keys ← signingKeys library.toKeyLibrary document
  let items ← keys.mapM fun (kid, key) => publicItem library kid key
  return .dict [(text "keys", .list items)]

/-- A public key is written with its type and its numbers, and what is read back from them
has the same public key and size. -/
structure KeyWriter.Lawful (library : KeyWriter Key Public) : Prop where
  written : ∀ key bits, library.publicBits key = some bits → ∃ n e,
    (library.toJwk (library.publicKey key)).item "kty" = .ok (.str (text "RSA")) ∧
    (library.toJwk (library.publicKey key)).item "n" = .ok n ∧
    (library.toJwk (library.publicKey key)).item "e" = .ok e ∧
    ∀ kid, ∃ again, library.load (.dict [(text "kty", .str (text "RSA")), (text "n", n),
        (text "e", e), (text "kid", .str kid)]) = .ok again ∧
      library.publicKey again = library.publicKey key ∧ library.publicBits again = some bits

/-- The public key under each identifier. -/
def publicKeys (keys : KeySet Key) : List (Text × Public) :=
  keys.map fun entry => (entry.1, library.publicKey entry.2)

/-- What every key of a validated set satisfies. -/
structure Usable (keys : KeySet Key) : Prop where
  kids : (keys.map Prod.fst).Nodup
  named : ∀ entry ∈ keys, entry.1 ≠ []
  strong : ∀ entry ∈ keys, ∃ bits, library.publicBits entry.2 = some bits ∧ 2048 ≤ bits

section Signing
variable {library}

/-- A key that is added comes under a new name, and is a strong one. -/
theorem addSigningKey_cases {result next : KeySet Key} {item : Json}
    (h : addSigningKey library.toKeyLibrary result item = .ok next) :
    next = result ∨ ∃ kid key bits, next = result ++ [(kid, key)] ∧ kid ≠ [] ∧
      result.lookup kid = none ∧ library.publicBits key = some bits ∧ 2048 ≤ bits := by
  unfold addSigningKey at h
  obtain ⟨signs, -, h⟩ := Raising.bind_eq_ok.mp h
  cases signs with
  | false =>
      cases h
      exact Or.inl rfl
  | true =>
      obtain ⟨kid, -, h⟩ := Raising.bind_eq_ok.mp h
      obtain ⟨key, -, h⟩ := Raising.bind_eq_ok.mp h
      cases hBits : library.publicBits key with
      | none =>
          rw [hBits] at h
          cases h
      | some bits =>
          simp only [hBits] at h
          by_cases hWeak : bits < 2048
          · rw [if_pos hWeak] at h
            cases h
          · rw [if_neg hWeak] at h
            cases kid with
            | str kid =>
                obtain ⟨secret, -, h⟩ := Raising.bind_eq_ok.mp h
                by_cases hRefused :
                    (kid.isEmpty || (result.lookup kid).isSome || secret) = true
                · rw [if_pos hRefused] at h
                  cases h
                · rw [if_neg hRefused] at h
                  cases h
                  simp only [Bool.or_eq_true, not_or, List.isEmpty_iff, Bool.not_eq_true,
                    Option.isSome_eq_false_iff, Option.isNone_iff_eq_none] at hRefused
                  exact Or.inr ⟨kid, key, bits, rfl, hRefused.1.1, hRefused.1.2, hBits,
                    Nat.le_of_not_lt hWeak⟩
            | _ => cases h

/-- Adding a strong key under a new name keeps a set usable. -/
theorem Usable.add {keys : KeySet Key} (usable : Usable library keys) {kid : Text} {key : Key}
    {bits : Nat} (hNamed : kid ≠ []) (hNew : keys.lookup kid = none)
    (hBits : library.publicBits key = some bits) (hStrong : 2048 ≤ bits) :
    Usable library (keys ++ [(kid, key)]) := by
  refine ⟨?_, ?_, ?_⟩
  · rw [List.map_append, List.nodup_append]
    refine ⟨usable.kids, List.nodup_singleton kid, ?_⟩
    intro one hOne other hOther hSame
    obtain rfl := List.mem_singleton.mp hOther
    obtain ⟨entry, hEntry, rfl⟩ := List.mem_map.mp hOne
    exact absurd hSame.symm (by simpa using List.lookup_eq_none_iff.mp hNew entry hEntry)
  · intro entry hEntry
    rcases List.mem_append.mp hEntry with hOld | hLast
    · exact usable.named entry hOld
    · obtain rfl := List.mem_singleton.mp hLast
      exact hNamed
  · intro entry hEntry
    rcases List.mem_append.mp hEntry with hOld | hLast
    · exact usable.strong entry hOld
    · obtain rfl := List.mem_singleton.mp hLast
      exact ⟨bits, hBits, hStrong⟩

theorem usable_foldlM {items : List Json} {keys result : KeySet Key}
    (usable : Usable library keys)
    (h : items.foldlM (addSigningKey library.toKeyLibrary) keys = .ok result) :
    Usable library result := by
  induction items generalizing keys with
  | nil =>
      cases h
      exact usable
  | cons item rest ih =>
      rw [List.foldlM_cons] at h
      obtain ⟨next, hNext, hRest⟩ := Raising.bind_eq_ok.mp h
      rcases addSigningKey_cases hNext with rfl | ⟨kid, key, bits, rfl, hNamed, hNew, hBits, hStrong⟩
      · exact ih usable hRest
      · exact ih (usable.add hNamed hNew hBits hStrong) hRest

theorem usable_signingKeys {document : Json} {keys : KeySet Key}
    (h : signingKeys library.toKeyLibrary document = .ok keys) :
    Usable library keys ∧ keys ≠ [] := by
  unfold signingKeys at h
  obtain ⟨listed, -, h⟩ := Raising.bind_eq_ok.mp h
  obtain ⟨items, -, h⟩ := Raising.bind_eq_ok.mp h
  obtain ⟨result, hFold, h⟩ := Raising.bind_eq_ok.mp h
  by_cases hEmpty : result.isEmpty = true
  · rw [if_pos hEmpty] at h
    cases h
  · rw [if_neg hEmpty] at h
    cases h
    have hStart : Usable library ([] : KeySet Key) := by
      constructor
      · exact List.nodup_nil
      · intro entry hEntry
        cases hEntry
      · intro entry hEntry
        cases hEntry
    exact ⟨usable_foldlM hStart hFold, by simpa using hEmpty⟩

/-- What is served of a key. -/
def publicFields (n e : Json) (kid : Text) : List (Text × Json) :=
  [(text "kty", .str (text "RSA")), (text "n", n), (text "e", e), (text "kid", .str kid)]

theorem lookup_text_ne {first second : String} (hNames : second ≠ first) (value : Json)
    (rest : List (Text × Json)) :
    ((text first, value) :: rest).lookup (text second) = rest.lookup (text second) := by
  have hTexts : (text second == text first) = false := by
    rw [beq_eq_false_iff_ne]
    exact mt text_inj.mp hNames
  rw [List.lookup_cons, hTexts]

section Fields
variable (n e : Json) (kid : Text)

theorem lookup_publicFields {name : String} (h : name ∉ ["kty", "n", "e", "kid"]) :
    (publicFields n e kid).lookup (text name) = none := by
  simp only [List.mem_cons, List.not_mem_nil, or_false, not_or] at h
  rw [publicFields, lookup_text_ne h.1, lookup_text_ne h.2.1, lookup_text_ne h.2.2.1,
    lookup_text_ne h.2.2.2, List.lookup_nil]

/-- Served fields are a signing key's. -/
theorem forSigning_publicFields : forSigning (.dict (publicFields n e kid)) = .ok true := by
  have hType : (Json.dict (publicFields n e kid)).get "kty" = .ok (.str (text "RSA")) := by
    rw [Json.get, publicFields, List.lookup_cons_self]
    rfl
  have hDefault (name : String) (value : Json) (h : name ∉ ["kty", "n", "e", "kid"]) :
      (Json.dict (publicFields n e kid)).getOr name value = .ok value := by
    rw [Json.getOr, lookup_publicFields n e kid h]
    rfl
  unfold forSigning
  rw [hType, hDefault "alg" _ (by decide), hDefault "use" _ (by decide),
    hDefault "key_ops" _ (by decide)]
  have hText (literal : String) : (Json.str (text literal)).isText literal = true := by
    simp [Json.isText]
  simp only [bind, Except.bind, hText, Bool.not_true, Bool.false_eq_true, if_false]
  simp [Json.contains, hText]

theorem contains_publicFields : (Json.dict (publicFields n e kid)).contains "d" = .ok false := by
  simp [Json.contains, publicFields, text_inj]

end Fields

/-- A served key is added as it was. -/
theorem addSigningKey_publicFields {result : KeySet Key} {n e : Json} {kid : Text} {again : Key}
    {bits : Nat} (hNamed : kid ≠ []) (hNew : result.lookup kid = none)
    (hLoad : library.load (.dict (publicFields n e kid)) = .ok again)
    (hBits : library.publicBits again = some bits) (hStrong : 2048 ≤ bits) :
    addSigningKey library.toKeyLibrary result (.dict (publicFields n e kid)) =
      .ok (result ++ [(kid, again)]) := by
  have hKid : (Json.dict (publicFields n e kid)).get "kid" = .ok (.str kid) := by
    rw [Json.get, publicFields, lookup_text_ne (by decide), lookup_text_ne (by decide),
      lookup_text_ne (by decide), List.lookup_cons_self]
    rfl
  have hAdmitted : (kid.isEmpty || (result.lookup kid).isSome || false) = false := by
    simp [hNew, hNamed]
  unfold addSigningKey
  rw [forSigning_publicFields, hKid, contains_publicFields]
  simp only [bind, Except.bind, Bool.not_true, Bool.false_eq_true, if_false, hLoad, hBits,
    if_neg (Nat.not_lt_of_le hStrong), hAdmitted]
  rfl

/-- What is served of a strong key gives the same public key again, and serves alike. -/
theorem publicItem_spec (lawful : library.Lawful) {key : Key} {bits : Nat}
    (hBits : library.publicBits key = some bits) (kid : Text) : ∃ n e again,
      publicItem library kid key = .ok (.dict (publicFields n e kid)) ∧
      library.load (.dict (publicFields n e kid)) = .ok again ∧
      library.publicKey again = library.publicKey key ∧ library.publicBits again = some bits := by
  obtain ⟨n, e, hType, hModulus, hExponent, hAgain⟩ := lawful.written key bits hBits
  obtain ⟨again, hLoad, hPublic, hSize⟩ := hAgain kid
  refine ⟨n, e, again, ?_, hLoad, hPublic, hSize⟩
  simp only [publicItem, hType, hModulus, hExponent, bind, Except.bind]
  rfl

theorem publicItem_congr {kid : Text} {key again : Key}
    (h : library.publicKey again = library.publicKey key) :
    publicItem library kid again = publicItem library kid key := by
  rw [publicItem, publicItem, h]

/-- Served keys are read on from those before them: the same names and public keys. -/
theorem publicItems_spec (lawful : library.Lawful) {keys : KeySet Key} (known : KeySet Key)
    (hKids : (known.map Prod.fst ++ keys.map Prod.fst).Nodup)
    (hNamed : ∀ entry ∈ keys, entry.1 ≠ [])
    (hStrong : ∀ entry ∈ keys, ∃ bits, library.publicBits entry.2 = some bits ∧ 2048 ≤ bits) :
    ∃ items again, keys.mapM (fun entry => publicItem library entry.1 entry.2) = .ok items ∧
      items.foldlM (addSigningKey library.toKeyLibrary) known = .ok (known ++ again) ∧
      publicKeys library again = publicKeys library keys ∧
      again.mapM (fun entry => publicItem library entry.1 entry.2) = .ok items ∧
      ∀ item ∈ items, ∃ n e kid, item = .dict (publicFields n e kid) := by
  induction keys generalizing known with
  | nil => exact ⟨[], [], rfl, by rw [List.append_nil]; rfl, rfl, rfl, by simp⟩
  | cons entry rest ih =>
      obtain ⟨kid, key⟩ := entry
      obtain ⟨bits, hBits, hEnough⟩ := hStrong _ List.mem_cons_self
      obtain ⟨n, e, renewed, hItem, hLoad, hPublic, hSize⟩ := publicItem_spec lawful hBits kid
      have hNew : known.lookup kid = none := by
        rw [List.lookup_eq_none_iff]
        intro other hOther
        rw [bne_iff_ne]
        exact ((List.nodup_append.mp hKids).2.2 other.1 (List.mem_map_of_mem hOther) kid
          List.mem_cons_self).symm
      have hAdd := addSigningKey_publicFields (hNamed _ List.mem_cons_self) hNew hLoad hSize hEnough
      have hNext : ((known ++ [(kid, renewed)]).map Prod.fst ++ rest.map Prod.fst).Nodup := by
        simpa using hKids
      obtain ⟨items, again, hItems, hFold, hKeys, hAlike, hShape⟩ := ih _ hNext
        (fun other hOther => hNamed other (List.mem_cons_of_mem _ hOther))
        (fun other hOther => hStrong other (List.mem_cons_of_mem _ hOther))
      refine ⟨.dict (publicFields n e kid) :: items, (kid, renewed) :: again, ?_, ?_, ?_, ?_, ?_⟩
      · rw [List.mapM_cons, hItem]
        simp only [bind, Except.bind, hItems]
        rfl
      · rw [List.foldlM_cons, hAdd]
        rw [List.append_assoc] at hFold
        exact hFold
      · rw [publicKeys, List.map_cons, hPublic, ← publicKeys, hKeys]
        rfl
      · rw [List.mapM_cons, publicItem_congr hPublic, hItem]
        simp only [bind, Except.bind, hAlike]
        rfl
      · intro item hMember
        rcases List.mem_cons.mp hMember with rfl | hRest
        · exact ⟨n, e, kid, rfl⟩
        · exact hShape item hRest

end Signing

/-- A document that is refused is not served. Of any other, the same keys are served under
the same identifiers, each with its type, its two numbers and its identifier and nothing else;
what is served is read as that key set again, and served as it is. -/
theorem publicJwks_faithful (lawful : library.Lawful) (document : Json) :
    (∀ raised, signingKeys library.toKeyLibrary document = .error raised →
      publicJwks library document = .error raised) ∧
    ∀ keys, signingKeys library.toKeyLibrary document = .ok keys → ∃ items again,
      publicJwks library document = .ok (.dict [(text "keys", .list items)]) ∧
      (∀ item ∈ items, ∃ n e kid, item = .dict [(text "kty", .str (text "RSA")), (text "n", n),
        (text "e", e), (text "kid", .str kid)]) ∧
      signingKeys library.toKeyLibrary (.dict [(text "keys", .list items)]) = .ok again ∧
      publicKeys library again = publicKeys library keys ∧
      publicJwks library (.dict [(text "keys", .list items)]) =
        .ok (.dict [(text "keys", .list items)]) := by
  constructor
  · intro raised h
    rw [publicJwks, h]
    rfl
  · intro keys hKeys
    obtain ⟨usable, hSome⟩ := usable_signingKeys hKeys
    obtain ⟨items, again, hItems, hFold, hPublic, hAlike, hShape⟩ :=
      publicItems_spec lawful [] usable.kids usable.named usable.strong
    have hAgain : signingKeys library.toKeyLibrary (.dict [(text "keys", .list items)]) =
        .ok again := by
      have hListed : (Json.dict [(text "keys", .list items)]).item "keys" = .ok (.list items) :=
        Json.item_dict.mpr List.lookup_cons_self
      have hFilled : again.isEmpty = false := by
        cases again with
        | nil => exact absurd (List.map_eq_nil_iff.mp hPublic.symm) hSome
        | cons entry rest => rfl
      rw [List.nil_append] at hFold
      simp only [signingKeys, hListed, Json.iterate, bind, Except.bind, hFold, hFilled,
        Bool.false_eq_true, if_false]
      rfl
    refine ⟨items, again, ?_, hShape, hAgain, hPublic, ?_⟩
    · rw [publicJwks, hKeys]
      simp only [bind, Except.bind, hItems]
      rfl
    · rw [publicJwks, hAgain]
      simp only [bind, Except.bind, hAlike]
      rfl

/-- Keys that are their two numbers. -/
def plainKeys : KeyWriter (Json × Json) (Json × Json) where
  load item := do
    let n ← item.item "n"
    let e ← item.item "e"
    return (n, e)
  publicBits _ := some 2048
  publicKey key := key
  toJwk key := .dict [(text "kty", .str (text "RSA")), (text "n", key.1), (text "e", key.2)]

theorem lawful_plainKeys : plainKeys.Lawful := by
  constructor
  intro key bits hBits
  refine ⟨key.1, key.2, Json.item_dict.mpr List.lookup_cons_self, ?_, ?_, ?_⟩
  · apply Json.item_dict.mpr
    rw [lookup_text_ne (by decide), List.lookup_cons_self]
    rfl
  · apply Json.item_dict.mpr
    rw [lookup_text_ne (by decide), lookup_text_ne (by decide), List.lookup_cons_self]
    rfl
  · intro kid
    refine ⟨key, ?_, rfl, hBits⟩
    have hModulus : (Json.dict [(text "kty", .str (text "RSA")), (text "n", key.1),
        (text "e", key.2), (text "kid", .str kid)]).item "n" = .ok key.1 :=
      Json.item_dict.mpr (by rw [lookup_text_ne (by decide), List.lookup_cons_self])
    have hExponent : (Json.dict [(text "kty", .str (text "RSA")), (text "n", key.1),
        (text "e", key.2), (text "kid", .str kid)]).item "e" = .ok key.2 :=
      Json.item_dict.mpr (by
        rw [lookup_text_ne (by decide), lookup_text_ne (by decide), List.lookup_cons_self])
    simp only [plainKeys, hModulus, hExponent, bind, Except.bind]
    rfl

/-- A signing key with a comment, and a key of another type. -/
def commented : Json :=
  .dict [(text "keys", .list [
    .dict [(text "kty", .str (text "RSA")), (text "n", .str (text "AQ")),
      (text "e", .str (text "AQAB")), (text "kid", .str (text "k")), (text "note", .null)],
    .dict [(text "kty", .str (text "EC"))]])]

theorem publicJwks_faithful_commented :
    publicJwks plainKeys commented = .ok (.dict [(text "keys", .list [
      .dict [(text "kty", .str (text "RSA")), (text "n", .str (text "AQ")),
        (text "e", .str (text "AQAB")), (text "kid", .str (text "k"))]])]) ∧
    ∃ items, publicJwks plainKeys commented = .ok (.dict [(text "keys", .list items)]) ∧
      publicJwks plainKeys (.dict [(text "keys", .list items)]) =
        .ok (.dict [(text "keys", .list items)]) := by
  have hKeys : signingKeys plainKeys.toKeyLibrary commented =
      .ok [(text "k", (.str (text "AQ"), .str (text "AQAB")))] := rfl
  refine ⟨rfl, ?_⟩
  obtain ⟨items, again, hServed, -, -, -, hAgain⟩ :=
    (publicJwks_faithful plainKeys lawful_plainKeys commented).2 _ hKeys
  exact ⟨items, hServed, hAgain⟩

end DocInsight.Gateway
