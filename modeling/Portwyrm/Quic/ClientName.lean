import Portwyrm.Quic.ClientHello

/-!
# Names that a client can send

The server names that `parse_client_hello` reads: ASCII texts in folded case without dots at
their end.  Of at most sixty thousand characters, each of them stands in some ClientHello.
-/

namespace Portwyrm.Quic

open Base

/-- A server name that some ClientHello carries. -/
def IsClientName (name : String) : Prop :=
  ∃ crypto alpns, parseClientHello crypto = .ok (name, alpns)

/-! ## What is read -/

lemma mem_rstripDots {s : String} {c : Char} (h : c ∈ (rstripDots s).toList) : c ∈ s.toList := by
  rw [rstripDots, String.toList_ofList] at h
  exact (List.rdropWhile_prefix _ _).subset h

lemma rstripDots_idem (s : String) : rstripDots (rstripDots s) = rstripDots s := by
  rw [rstripDots, rstripDots, String.toList_ofList, List.rdropWhile_idempotent]

/-- Folding again changes nothing. -/
lemma nameKey_idem (name : String) : nameKey (nameKey name) = nameKey name := by
  have hfold : Text.casefold (nameKey name) = nameKey name := by
    rw [Text.casefold]
    refine (congrArg String.ofList ?_).trans String.ofList_toList
    calc (nameKey name).toList.flatMap Text.foldChar
        = (nameKey name).toList.flatMap (fun c => [c]) := by
          refine List.flatMap_congr fun c hc => ?_
          have hmem := mem_rstripDots hc
          rw [Text.casefold, String.toList_ofList] at hmem
          obtain ⟨d, -, hd⟩ := List.mem_flatMap.mp hmem
          exact Text.foldChar_of_mem hd
      _ = (nameKey name).toList := List.flatMap_singleton' _
  rw [nameKey, hfold, nameKey, rstripDots_idem]

lemma isAscii_nameKey {name : String} (h : IsAscii name) : IsAscii (nameKey name) := by
  intro d hd
  have hmem := mem_rstripDots hd
  rw [Text.casefold, String.toList_ofList] at hmem
  obtain ⟨c, hc, hd⟩ := List.mem_flatMap.mp hmem
  rcases Text.foldChar_cases c with ⟨e, he, hf⟩ | hf
  · have hall : (Text.asciiFoldings.all fun e => e.2.all fun d => d.toNat < 128) = true := by
      decide
    simp only [List.all_eq_true, decide_eq_true_eq] at hall
    exact hall e he d (hf ▸ hd)
  · obtain rfl : d = c.toLower := by simpa [hf] using hd
    by_cases hu : c.isUpper = true
    · obtain ⟨n, hn, rfl⟩ := Text.exists_of_isUpper hu
      have hall : ∀ n ∈ List.range' 65 26, (Char.ofNat n).toLower.toNat < 128 := by decide
      exact hall n hn
    · rw [Text.toLower_of_not_isUpper hu]
      exact h c hc

lemma toNat_ofNat {n : ℕ} (h : n < 0xd800) : (Char.ofNat n).toNat = n := by
  rw [Char.ofNat, dif_pos (.inl h)]
  rfl

lemma isAscii_of_decodeAscii {data : Bytes} {name : String} (h : decodeAscii data = .ok name) :
    IsAscii name := by
  simp only [decodeAscii, bind_eq_ok_iff, raiseIf_eq_ok_iff, pure_eq_ok_iff, not_exists,
    not_and, Nat.not_le] at h
  obtain ⟨-, hdata, rfl⟩ := h
  intro c hc
  rw [String.toList_ofList] at hc
  obtain ⟨byte, hbyte, rfl⟩ := List.mem_map.mp hc
  have hlt := hdata byte hbyte
  rwa [toNat_ofNat (by omega)]

/-- A name that has been read is in canonical form. -/
lemma extensionsFrom_name {body : Bytes} {stop rounds offset : ℕ} {serverName name : String}
    {alpns names : List String}
    (h : extensionsFrom body stop rounds offset serverName alpns = .ok (name, names))
    (hname : IsAscii serverName ∧ nameKey serverName = serverName) :
    IsAscii name ∧ nameKey name = name := by
  induction rounds generalizing offset serverName alpns with
  | zero =>
    obtain ⟨rfl, -⟩ := Prod.mk.inj (pure_eq_ok_iff.mp h)
    exact hname
  | succ rounds ih =>
    rw [extensionsFrom] at h
    split at h
    · obtain ⟨rfl, -⟩ := Prod.mk.inj (pure_eq_ok_iff.mp h)
      exact hname
    · dsimp only at h
      split at h
      · obtain ⟨text, htext, h⟩ := bind_eq_ok_iff.mp h
        exact ih h ⟨isAscii_nameKey (isAscii_of_decodeAscii htext), nameKey_idem text⟩
      · split at h
        · obtain ⟨more, -, h⟩ := bind_eq_ok_iff.mp h
          exact ih h hname
        · exact ih h hname

/-- A name from a client is an ASCII text in canonical form. -/
theorem IsClientName.canonical {name : String} (h : IsClientName name) :
    name ≠ "" ∧ IsAscii name ∧ nameKey name = name := by
  obtain ⟨crypto, alpns, h⟩ := h
  simp only [parseClientHello, bind_eq_ok_iff, raiseIf_eq_ok_iff, pure_eq_ok_iff] at h
  obtain ⟨-, -, -, -, _, -, _, -, ⟨serverName, names⟩, hread, -, hne, heq⟩ := h
  obtain ⟨rfl, -⟩ := Prod.mk.inj heq
  exact ⟨hne, extensionsFrom_name hread ⟨by decide, by decide⟩⟩

/-! ## What can be sent -/

/-- The server name extension. -/
def sniExtension (name : String) : Bytes :=
  let length := name.toList.length
  [0, 0] ++ (bytes2 (length + 5) ++ (bytes2 (length + 3) ++ ([0] ++ (bytes2 length ++ ascii name))))

/-- The body of a ClientHello in front of the extensions. -/
def helloStart : Bytes :=
  [3, 3] ++ List.replicate 32 0 ++ [0] ++ [0, 2, 0x13, 1] ++ [1, 0]

/-- A ClientHello whose only extension is the server name. -/
def clientHello (name : String) : Bytes :=
  let extensions := sniExtension name
  let body := helloStart ++ (bytes2 extensions.length ++ extensions)
  [1] ++ (bytes3 body.length ++ body)

lemma wellFormed_serverName {name : String} (h : IsAscii name)
    (hlength : name.toList.length < 60000) :
    ∀ extension ∈ [Extension.serverName name], extension.WellFormed := by
  refine List.forall_mem_singleton.mpr ⟨?_, h⟩
  simp only [Extension.value, bytes2, List.length_append, List.length_cons, List.length_nil,
    length_ascii]
  omega

lemma length_encode_serverName {name : String} (hlength : name.toList.length < 60000) :
    ([Extension.serverName name].flatMap Extension.encode).length < 65536 := by
  simp only [List.flatMap_singleton, Extension.length_encode, Extension.value, bytes2,
    List.length_append, List.length_cons, List.length_nil, length_ascii]
  omega

/-- The same ClientHello, field by field. -/
def plainHello (name : String) (h : IsAscii name) (hlength : name.toList.length < 60000) :
    ClientHello where
  version := 0x0303
  random := List.replicate 32 0
  sessionId := []
  ciphers := [0x1301]
  compressions := [0]
  extensions := [.serverName name]
  length_random := rfl
  length_sessionId := length_nil_lt
  length_ciphers := by decide
  length_compressions := ClientHello.sample.length_compressions
  wellFormed := wellFormed_serverName h hlength
  length_extensions := length_encode_serverName hlength

lemma sniExtension_eq (name : String) : sniExtension name = (Extension.serverName name).encode := by
  have hlength : (Extension.serverName name).value.length = name.toList.length + 5 := by
    simp only [Extension.value, bytes2, List.length_append, List.length_cons, List.length_nil,
      length_ascii]
    omega
  have hkind : bytes2 (Extension.serverName name).type = [0, 0] := by
    rw [Extension.type]
    decide
  rw [Extension.encode, hlength, hkind]
  rfl

lemma clientHello_eq (name : String) (h : IsAscii name) (hlength : name.toList.length < 60000) :
    clientHello name = (plainHello name h hlength).encode := by
  have hbody : (plainHello name h hlength).body =
      helloStart ++ (bytes2 (sniExtension name).length ++ sniExtension name) := by
    simp [sniExtension_eq, ClientHello.body, plainHello, helloStart, bytes2]
  rw [ClientHello.encode, hbody]
  rfl

/-- The name in a ClientHello is read back. -/
theorem parseClientHello_clientHello {name : String} (hne : name ≠ "") (h : IsAscii name)
    (hkey : nameKey name = name) (hlength : name.toList.length < 60000) :
    parseClientHello (clientHello name) = .ok (name, []) := by
  have hread := (plainHello name h hlength).parseClientHello_append []
  have hname : (plainHello name h hlength).extensions.foldl Extension.readName "" = nameKey name := rfl
  dsimp only at hread
  rw [List.append_nil, ← clientHello_eq, hname, hkey, raiseIf, if_neg hne] at hread
  exact hread

/-- Every ASCII text in canonical form, of at most sixty thousand characters, can be sent. -/
theorem isClientName_of_canonical {name : String} (hne : name ≠ "") (h : IsAscii name)
    (hkey : nameKey name = name) (hlength : name.toList.length < 60000) : IsClientName name :=
  ⟨clientHello name, [], parseClientHello_clientHello hne h hkey hlength⟩

end Portwyrm.Quic
