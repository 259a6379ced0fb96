import Portwyrm.Quic.Encoding

/-!
# The ClientHello

The messages that a client sends, field by field, and their bytes.  `parse_client_hello` reads the
server name and the protocols back, wherever their extensions stand among the others.
-/

namespace Portwyrm.Quic

open Base

/-! ## Names -/

/-- A text of ASCII characters. -/
def IsAscii (s : String) : Prop := ∀ c ∈ s.toList, c.toNat < 128

instance (s : String) : Decidable (IsAscii s) :=
  inferInstanceAs (Decidable (∀ c ∈ s.toList, c.toNat < 128))

/-- The key of a name: in folded case, without dots at its end. -/
def nameKey (name : String) : String := rstripDots (Text.casefold name)

lemma length_ascii (name : String) : (ascii name).length = name.toList.length :=
  List.length_map _

lemma decodeAscii_ascii {name : String} (h : IsAscii name) : decodeAscii (ascii name) = .ok name := by
  have hbyte : ∀ c ∈ name.toList, (UInt8.ofNat c.toNat).toNat = c.toNat := by
    intro c hc
    have hlt := h c hc
    rw [UInt8.toNat_ofNat']
    omega
  have hascii : ¬ ∃ byte ∈ ascii name, 128 ≤ byte.toNat := by
    rintro ⟨byte, hmem, hle⟩
    obtain ⟨c, hc, rfl⟩ := List.mem_map.mp hmem
    rw [hbyte c hc] at hle
    exact absurd (h c hc) (by omega)
  have hback : (ascii name).map (fun byte => Char.ofNat byte.toNat) = name.toList := by
    rw [ascii, List.map_map]
    refine (List.map_congr_left fun c hc => ?_).trans (List.map_id _)
    rw [Function.comp_apply, hbyte c hc, Char.ofNat_toNat, id]
  rw [decodeAscii, raiseIf, if_neg hascii, hback, String.ofList_toList]
  rfl

/-- On ASCII texts the key is the name in lower case, without dots at its end. -/
lemma nameKey_eq_lower {name : String} (h : IsAscii name) :
    nameKey name = rstripDots (Text.lower name) := by
  rw [nameKey, Text.casefold_eq_lower h]

/-- A text that is not made of dots has a key. -/
lemma nameKey_ne_empty {name : String} (h : IsAscii name) (hdots : ∃ c ∈ name.toList, c ≠ '.') :
    nameKey name ≠ "" := by
  obtain ⟨c, hc, hne⟩ := hdots
  have hlower : c.toLower ≠ '.' := by
    intro heq
    by_cases hu : c.isUpper = true
    · obtain ⟨n, hn, rfl⟩ := Text.exists_of_isUpper hu
      have hall : ∀ n ∈ List.range' 65 26, (Char.ofNat n).toLower ≠ '.' := by decide
      exact hall n hn heq
    · exact hne (Text.toLower_of_not_isUpper hu ▸ heq)
  rw [nameKey_eq_lower h, rstripDots, Text.lower, String.toList_ofList]
  intro hempty
  have hnil : ((name.toList.map Char.toLower).rdropWhile fun c => decide (c = '.')) = [] := by
    rw [← String.toList_ofList (l := List.rdropWhile _ _), hempty]
    rfl
  exact hlower (of_decide_eq_true
    (List.rdropWhile_eq_nil_iff.mp hnil c.toLower (List.mem_map_of_mem hc)))

/-! ## Extensions -/

/-- An extension of a ClientHello. -/
inductive Extension
  | serverName (name : String)
  | alpn (names : List String)
  | other (type : ℕ) (value : Bytes)

namespace Extension

/-- The number of the kind of an extension. -/
def type : Extension → ℕ
  | .serverName _ => 0
  | .alpn _ => 16
  | .other type _ => type

/-- A protocol name behind its length. -/
def protocolName (name : String) : Bytes := UInt8.ofNat name.toList.length :: ascii name

/-- The contents of an extension. -/
def value : Extension → Bytes
  | .serverName name =>
    let length := name.toList.length
    bytes2 (length + 3) ++ ([0] ++ (bytes2 length ++ ascii name))
  | .alpn names =>
    let list := names.flatMap protocolName
    bytes2 list.length ++ list
  | .other _ value => value

/-- The bytes of an extension. -/
def encode (e : Extension) : Bytes := bytes2 e.type ++ (bytes2 e.value.length ++ e.value)

/-- The texts fit the format: the kind and the lengths stand in their fields, and a kind that the
format gives a meaning to has it. -/
structure WellFormed (e : Extension) : Prop where
  length_value : e.value.length < 65536
  fits : match e with
    | .serverName name => IsAscii name
    | .alpn names => ∀ name ∈ names, IsAscii name ∧ name.toList.length < 256
    | .other type _ => type < 65536 ∧ type ≠ 0 ∧ type ≠ 16

/-- The name of a server name extension. -/
def serverName? : Extension → Option String
  | .serverName name => some name
  | _ => none

/-- The names of a protocol extension. -/
def protocols : Extension → List String
  | .alpn names => names
  | _ => []

variable {e : Extension}

lemma length_encode : e.encode.length = e.value.length + 4 := by
  simp only [encode, bytes2, List.length_append, List.length_cons, List.length_nil]
  omega

lemma WellFormed.type_lt (h : e.WellFormed) : e.type < 65536 := by
  cases e with
  | serverName name => exact Nat.zero_lt_succ _
  | alpn names => exact Nat.lt_of_lt_of_le (by decide : 16 < 17) (by decide)
  | other type value => exact h.fits.1

/-- The names of a protocol extension are read one by one. -/
lemma alpnsFrom_eq {names : List String}
    (h : ∀ name ∈ names, IsAscii name ∧ name.toList.length < 256) {data : Bytes} {cursor rounds : ℕ}
    (hdata : StandsAt data cursor (names.flatMap protocolName))
    (hend : data.length = cursor + (names.flatMap protocolName).length)
    (hrounds : names.length ≤ rounds) : alpnsFrom data rounds cursor = .ok names := by
  induction names generalizing cursor rounds with
  | nil =>
    cases rounds with
    | zero => rfl
    | succ rounds =>
      have hnone : data[cursor]? = none := List.getElem?_eq_none hend.le
      rw [alpnsFrom, hnone]
      rfl
  | cons name names ih =>
    obtain ⟨⟨hascii, hlength⟩, hnames⟩ := List.forall_mem_cons.mp h
    obtain ⟨rounds, rfl⟩ : ∃ n, rounds = n + 1 := ⟨rounds - 1, by rw [List.length_cons] at hrounds; omega⟩
    rw [List.flatMap_cons] at hdata hend
    have hsize : (UInt8.ofNat name.toList.length).toNat = (ascii name).length := by
      rw [UInt8.toNat_ofNat', length_ascii]
      omega
    have hname : slice data (cursor + 1) (cursor + 1 + (ascii name).length) = ascii name :=
      (StandsAt.right (a := [_]) hdata.left).slice_eq
    have hnext : cursor + (protocolName name).length = cursor + 1 + (ascii name).length := by
      rw [protocolName, List.length_cons]
      omega
    have hbehind := hdata.right
    rw [List.length_append, ← Nat.add_assoc] at hend
    rw [hnext] at hbehind hend
    rw [List.length_cons] at hrounds
    rw [alpnsFrom, (hdata.left : StandsAt data cursor (_ :: _)).getElem?_eq]
    dsimp only
    rw [hsize, hname, decodeAscii_ascii hascii, ok_bind, ih hnames hbehind hend (by omega)]
    rfl

/-- The server name behind an extension. -/
def readName (serverName : String) (e : Extension) : String :=
  (e.serverName?.map nameKey).getD serverName

/-- An extension is read where it stands. -/
lemma extensionsFrom_encode (h : e.WellFormed) {body : Bytes} {stop offset : ℕ}
    (hbody : StandsAt body offset e.encode) (hstop : offset + e.encode.length ≤ stop) (rounds : ℕ)
    (serverName : String) (alpns : List String) :
    extensionsFrom body stop (rounds + 1) offset serverName alpns =
      extensionsFrom body stop rounds (offset + e.encode.length) (readName serverName e)
        (alpns ++ e.protocols) := by
  have htype : slice body offset (offset + 2) = bytes2 e.type := hbody.left.slice_eq
  have hlength : slice body (offset + 2) (offset + 4) = bytes2 e.value.length :=
    hbody.right.left.slice_eq
  have hvalue : slice body (offset + 4) (offset + 4 + e.value.length) = e.value :=
    hbody.right.right.slice_eq
  have hend : offset + 4 + e.value.length = offset + e.encode.length := by
    rw [length_encode]
    omega
  rw [extensionsFrom, if_neg (by rw [length_encode] at hstop; omega)]
  dsimp only
  rw [htype, hlength, fromBytes_bytes2 h.type_lt, fromBytes_bytes2 h.length_value, hvalue, hend]
  cases e with
  | serverName name =>
    have hsize := h.length_value
    have hlong : 5 ≤ (value (.serverName name)).length := by
      simp only [value, bytes2, List.length_append, List.length_cons, List.length_nil]
      omega
    have hname : slice (value (.serverName name)) 5 (5 + (ascii name).length) = ascii name :=
      (StandsAt.of_append (c := []) (a := bytes2 (name.toList.length + 3) ++
        ([0] ++ bytes2 name.toList.length)) (by simp [value]) rfl).slice_eq
    have hnameLength : slice (value (.serverName name)) 3 5 = bytes2 name.toList.length :=
      slice_append (a := bytes2 (name.toList.length + 3) ++ [0]) (c := ascii name) (by simp [value])
        rfl rfl
    simp only [value, bytes2, List.length_append, List.length_cons, List.length_nil,
      length_ascii] at hsize
    rw [if_pos ⟨rfl, hlong⟩, hnameLength, fromBytes_bytes2 (by omega), ← length_ascii, hname,
      decodeAscii_ascii h.fits, ok_bind]
    exact congrArg _ (List.append_nil alpns).symm
  | alpn names =>
    have hlong : 2 ≤ (value (.alpn names)).length := by
      simp only [value, bytes2, List.length_append, List.length_cons, List.length_nil]
      omega
    have hnames : alpnsFrom (value (.alpn names)) (value (.alpn names)).length 2 = .ok names := by
      refine alpnsFrom_eq h.fits ?_ ?_ ?_
      · exact StandsAt.of_append (c := []) (a := bytes2 (names.flatMap protocolName).length)
          (by simp [value]) rfl
      · rw [value, List.length_append]
        rfl
      · have hle : names.length ≤ (names.flatMap protocolName).length :=
          length_le_length_flatMap (f := protocolName) (fun _ => Nat.succ_pos _) names
        rw [value, List.length_append]
        omega
    rw [if_neg (by simp [type]), if_pos ⟨rfl, hlong⟩, hnames, ok_bind]
    rfl
  | other kind content =>
    have hkind := h.fits.2
    rw [if_neg fun hc => hkind.1 hc.1, if_neg fun hc => hkind.2 hc.1]
    exact congrArg _ (List.append_nil alpns).symm

/-- Extensions are read one by one. -/
lemma extensionsFrom_flatMap_encode {extensions : List Extension}
    (h : ∀ e ∈ extensions, e.WellFormed) {body : Bytes} {stop offset rounds : ℕ}
    (hbody : StandsAt body offset (extensions.flatMap encode))
    (hstop : stop = offset + (extensions.flatMap encode).length)
    (hrounds : extensions.length ≤ rounds) (serverName : String) (alpns : List String) :
    extensionsFrom body stop rounds offset serverName alpns =
      .ok (extensions.foldl readName serverName, alpns ++ extensions.flatMap protocols) := by
  induction extensions generalizing offset rounds serverName alpns with
  | nil =>
    rw [List.flatMap_nil, List.append_nil]
    cases rounds with
    | zero => rfl
    | succ rounds =>
      rw [extensionsFrom, if_pos (by rw [hstop, List.flatMap_nil, List.length_nil]; omega)]
      rfl
  | cons e extensions ih =>
    obtain ⟨he, hextensions⟩ := List.forall_mem_cons.mp h
    rw [List.length_cons] at hrounds
    obtain ⟨rounds, rfl⟩ : ∃ n, rounds = n + 1 := ⟨rounds - 1, by omega⟩
    rw [List.flatMap_cons] at hbody hstop
    rw [List.length_append, ← Nat.add_assoc] at hstop
    rw [extensionsFrom_encode he hbody.left (by omega),
      ih hextensions hbody.right hstop (by omega), List.foldl_cons, List.flatMap_cons,
      List.append_assoc]

/-- The last server name counts. -/
lemma foldl_readName (extensions : List Extension) (serverName : String) :
    extensions.foldl readName serverName =
      (((extensions.filterMap serverName?).getLast?).map nameKey).getD serverName := by
  induction extensions using List.reverseRecOn with
  | nil => rfl
  | append_singleton extensions e ih =>
    rw [List.foldl_append, ih, List.filterMap_append, List.getLast?_append]
    cases e <;> rfl

end Extension

/-! ## Messages -/

/-- A ClientHello. -/
structure ClientHello where
  version : ℕ
  random : Bytes
  sessionId : Bytes
  ciphers : List ℕ
  compressions : Bytes
  extensions : List Extension
  length_random : random.length = 32
  length_sessionId : sessionId.length < 256
  length_ciphers : 2 * ciphers.length < 65536
  length_compressions : compressions.length < 256
  wellFormed : ∀ e ∈ extensions, e.WellFormed
  length_extensions : (extensions.flatMap Extension.encode).length < 65536

namespace ClientHello

variable (hello : ClientHello)

/-- The names in the server name extensions. -/
def serverNames : List String := hello.extensions.filterMap Extension.serverName?

/-- The protocols in the protocol extensions. -/
def protocols : List String := hello.extensions.flatMap Extension.protocols

/-- The body of a ClientHello. -/
def body : Bytes :=
  let ciphers := hello.ciphers.flatMap bytes2
  let extensions := hello.extensions.flatMap Extension.encode
  bytes2 hello.version ++ (hello.random ++
    ([UInt8.ofNat hello.sessionId.length] ++ (hello.sessionId ++
      (bytes2 ciphers.length ++ (ciphers ++
        ([UInt8.ofNat hello.compressions.length] ++ (hello.compressions ++
          (bytes2 extensions.length ++ extensions))))))))

/-- The bytes of a ClientHello. -/
def encode : Bytes := [1] ++ (bytes3 hello.body.length ++ hello.body)

lemma length_flatMap_bytes2 (ciphers : List ℕ) : (ciphers.flatMap bytes2).length = 2 * ciphers.length := by
  rw [List.length_flatMap]
  simp [bytes2, Nat.mul_comm]

lemma length_body : hello.body.length < 16777216 := by
  have hrandom := hello.length_random
  have hsessionId := hello.length_sessionId
  have hciphers := hello.length_ciphers
  have hcompressions := hello.length_compressions
  have hextensions := hello.length_extensions
  have hflat := length_flatMap_bytes2 hello.ciphers
  simp only [body, List.length_append, bytes2, List.length_cons, List.length_nil] at hflat ⊢
  omega

/-- What is read from the bytes of a ClientHello, whatever follows them. -/
lemma parseClientHello_append (trailing : Bytes) :
    parseClientHello (hello.encode ++ trailing) = (do
      let serverName := hello.extensions.foldl Extension.readName ""
      raiseIf (serverName = "") (.quicParseError "ClientHello does not contain SNI")
      pure (serverName, hello.protocols)) := by
  have hdata : StandsAt (hello.encode ++ trailing) 0 hello.encode := List.prefix_append _ _
  have hlong : ¬ ((hello.encode ++ trailing).length < 4 ∨
      (hello.encode ++ trailing).head? ≠ some 1) := by
    rw [not_or]
    refine ⟨?_, not_not.mpr rfl⟩
    simp only [encode, bytes3, bytes2, List.length_append, List.length_cons]
    omega
  have hlength : slice (hello.encode ++ trailing) 1 4 = bytes3 hello.body.length :=
    hdata.right.left.slice_eq
  have hslice : slice (hello.encode ++ trailing) 4 (4 + hello.body.length) = hello.body :=
    hdata.right.right.slice_eq
  have hbody : StandsAt hello.body 0 hello.body := List.prefix_refl _
  -- the fields of the body, one behind the other
  have hsession : StandsAt hello.body 34 ([UInt8.ofNat hello.sessionId.length] ++ _) :=
    (hbody.behind 2 rfl).behind 34 (by rw [hello.length_random])
  have hciphers : StandsAt hello.body (35 + hello.sessionId.length)
      (bytes2 (hello.ciphers.flatMap bytes2).length ++ _) :=
    (hsession.behind _ rfl).behind _ rfl
  have hcompressions : StandsAt hello.body
      (35 + hello.sessionId.length + 2 + (hello.ciphers.flatMap bytes2).length)
      ([UInt8.ofNat hello.compressions.length] ++ _) :=
    (hciphers.behind _ rfl).behind _ rfl
  have hextensions : StandsAt hello.body
      (35 + hello.sessionId.length + 2 + (hello.ciphers.flatMap bytes2).length + 1 +
        hello.compressions.length) (bytes2 (hello.extensions.flatMap Extension.encode).length ++ _) :=
    (hcompressions.behind _ rfl).behind _ rfl
  have hsessionLength : (UInt8.ofNat hello.sessionId.length).toNat = hello.sessionId.length :=
    UInt8.toNat_ofNat_of_lt hello.length_sessionId
  have hcompressionsLength :
      (UInt8.ofNat hello.compressions.length).toNat = hello.compressions.length :=
    UInt8.toNat_ofNat_of_lt hello.length_compressions
  have hciphersLength : (hello.ciphers.flatMap bytes2).length < 65536 :=
    length_flatMap_bytes2 hello.ciphers ▸ hello.length_ciphers
  have hcount : hello.extensions.length ≤ (hello.extensions.flatMap Extension.encode).length :=
    length_le_length_flatMap (fun e => by rw [Extension.length_encode]; exact Nat.succ_pos _) _
  have hciphersField : slice hello.body (35 + hello.sessionId.length)
      (35 + hello.sessionId.length + 2) = bytes2 (hello.ciphers.flatMap bytes2).length :=
    hciphers.left.slice_eq
  generalize hstart : 35 + hello.sessionId.length + 2 + (hello.ciphers.flatMap bytes2).length + 1 +
    hello.compressions.length = start at hextensions
  have hextensionsField : slice hello.body start (start + 2) =
      bytes2 (hello.extensions.flatMap Extension.encode).length :=
    hextensions.left.slice_eq
  have hread := Extension.extensionsFrom_flatMap_encode hello.wellFormed
    (hextensions.behind (start + 2) rfl) rfl hcount "" []
  simp only [parseClientHello, raiseIf, if_neg hlong, hlength, fromBytes_bytes3 hello.length_body,
    hslice, pure_bind, ne_eq, not_true_eq_false, if_false, hsession.byteAt_eq, ok_bind,
    hsessionLength, hciphersField, fromBytes_bytes2 hciphersLength, hcompressions.byteAt_eq,
    hcompressionsLength, hstart, hextensionsField, fromBytes_bytes2 hello.length_extensions, hread]
  rfl

/-- A ClientHello is read back: with one server name extension, the name in lower case without dots
at its end, and all protocols in order. -/
theorem parseClientHello_encode {name : String} (hname : hello.serverNames = [name])
    (hdots : ∃ c ∈ name.toList, c ≠ '.') (trailing : Bytes) :
    parseClientHello (hello.encode ++ trailing) =
      .ok (rstripDots (Text.lower name), hello.protocols) := by
  have hascii : IsAscii name := by
    have hmem : name ∈ hello.serverNames := by rw [hname]; exact List.mem_singleton_self name
    obtain ⟨e, he, heq⟩ := List.mem_filterMap.mp hmem
    have hfits := hello.wellFormed e he
    cases e with
    | serverName name' =>
      obtain rfl := Option.some.inj heq
      exact hfits.fits
    | alpn => exact nomatch heq
    | other => exact nomatch heq
  have hread : hello.extensions.foldl Extension.readName "" = nameKey name := by
    rw [Extension.foldl_readName, show hello.extensions.filterMap Extension.serverName? = [name]
      from hname]
    rfl
  rw [parseClientHello_append]
  dsimp only
  rw [hread, raiseIf, if_neg (nameKey_ne_empty hascii hdots), nameKey_eq_lower hascii]
  rfl

/-- A ClientHello with an extension of another kind in front of the two that count. -/
def sample : ClientHello where
  version := 0x0303
  random := List.replicate 32 7
  sessionId := [1, 2]
  ciphers := [0x1301, 0x1302]
  compressions := [0]
  extensions := [.other 43 [2, 3, 4], .serverName "App.Example.", .alpn ["h3", "h3-29"]]
  length_random := rfl
  length_sessionId := by decide
  length_ciphers := by decide
  length_compressions := by decide
  wellFormed := List.forall_mem_cons.mpr ⟨⟨by decide, by decide⟩, List.forall_mem_cons.mpr
    ⟨⟨by decide, by decide⟩, List.forall_mem_singleton.mpr ⟨by decide, by decide⟩⟩⟩
  length_extensions := by decide

/-- The sample is read back, with two bytes behind it. -/
theorem parseClientHello_sample : parseClientHello (sample.encode ++ [0, 1]) =
    .ok (rstripDots (Text.lower "App.Example."), ["h3", "h3-29"]) :=
  sample.parseClientHello_encode (show sample.serverNames = ["App.Example."] from rfl)
    ⟨'A', by decide, by decide⟩ [0, 1]

end ClientHello

end Portwyrm.Quic
