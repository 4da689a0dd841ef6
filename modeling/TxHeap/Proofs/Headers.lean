/-
  TxHeap.Proofs.Headers — a header is its two words, and its slot is forwarded once.

  The headers that come about are those that fit two words (`made_iff_fits`), and on these
  coding is one to one (`bijOn_decode`). That holds also of a slot with both tags, or with a
  tag and the null address: it reads as empty, but its words are kept as they are.

  A version is read as it was set (`version_setVersion`), because setting clears both tags
  first. The tags and the mark of a copied object are different flags, so setting the one
  leaves the other (`Header.SameOff`).

  A forwarding address is installed just where the slot has none (`touch_of_open`,
  `touch_of_forwarded`). So whatever is offered to a header, with marks and recodings in
  between, the first address is taken and no other, unless there was one before
  (`touchAll_of_open`, `touchAll_of_forwarded`); and it is read from then on
  (`version_of_installed`).
-/
import Mathlib.Data.Set.Function
import TxHeap.Proofs.Arena

namespace TxHeap

/-! ## Flags -/

namespace Flag

theorem testBit_of_high {flags i : Nat} (lt : flags < idLimit) (high : ¬ i < 32) : flags.testBit i = false :=
  Nat.testBit_lt_two_pow (Nat.lt_of_lt_of_le lt (Nat.pow_le_pow_right (n := 2) (by decide) (Nat.not_lt.1 high)))

theorem testBit_untagged (i : Nat) : untagged.testBit i = (decide (i < 32) && !tags.testBit i) := by
  have split : untagged = (2 ^ 32 - 1) ^^^ tags := by decide
  rw [split, Nat.testBit_xor, Nat.testBit_two_pow_sub_one]
  by_cases low : i < 32
  · simp [low]
  · have none : tags.testBit i = false := testBit_of_high (by decide) low
    simp [low, none]

/-- Clearing the tags leaves all other flags. -/
theorem testBit_and_untagged {flags i : Nat} (lt : flags < idLimit) (clear : tags.testBit i = false) :
    (flags &&& untagged).testBit i = flags.testBit i := by
  rw [Nat.testBit_and, testBit_untagged, clear]
  by_cases low : i < 32
  · simp [low]
  · simp [testBit_of_high lt low]

/-- Clearing both tags and setting one of them leaves that one. -/
theorem retag (flags : Nat) {tag : Nat} (inside : tag &&& tags = tag) :
    (flags &&& untagged ||| tag) &&& tags = tag := by
  rw [Nat.and_or_distrib_right, Nat.and_assoc, show untagged &&& tags = 0 by decide, Nat.and_zero, Nat.zero_or, inside]

end Flag

namespace Version

/-- An address in the slot is a word and not null. -/
def Fits (v : Version) : Prop := ∀ a, v.address? = some a → a ≠ 0 ∧ a < wordLimit

def twin? : Version → Option Nat
  | .forwarded twin => some twin
  | _ => none

theorem twin?_eq_some {v : Version} {twin : Nat} : v.twin? = some twin ↔ v = .forwarded twin := by
  cases v <;> simp [twin?]

end Version

namespace Header

variable {h h' h'' : Header} {v : Version} {mask mask' twin a : Nat}

/-! ## What setting leaves alone -/

/-- The headers are of the same type, and have the same flags where the mask has none. -/
structure SameOff (mask : Nat) (h h' : Header) : Prop where
  typeId : h'.typeId = h.typeId
  flags : ∀ i, mask.testBit i = false → h'.flags.testBit i = h.flags.testBit i

theorem SameOff.refl (mask : Nat) (h : Header) : SameOff mask h h := ⟨rfl, fun _ _ => rfl⟩

theorem SameOff.trans (same : SameOff mask h h') (same' : SameOff mask h' h'') : SameOff mask h h'' :=
  ⟨same'.typeId.trans same.typeId, fun i clear => (same'.flags i clear).trans (same.flags i clear)⟩

theorem SameOff.left (same : SameOff mask h h') : SameOff (mask ||| mask') h h' := by
  refine ⟨same.typeId, fun i clear => same.flags i ?_⟩
  rw [Nat.testBit_or, Bool.or_eq_false_iff] at clear
  exact clear.1

theorem SameOff.right (same : SameOff mask' h h') : SameOff (mask ||| mask') h h' := by
  rw [Nat.or_comm]
  exact same.left

theorem version_setVersion (h : Header) (proper : v.address? ≠ some 0) : (h.setVersion v).version = v := by
  cases v with
  | empty => exact if_pos rfl
  | copyOf a =>
    have present : a ≠ 0 := fun null => proper (congrArg some null)
    have tag : (h.setVersion (.copyOf a)).flags &&& Flag.tags = Flag.copyOf := Flag.retag h.flags (by decide)
    exact (if_neg present).trans (if_pos tag)
  | forwarded a =>
    have present : a ≠ 0 := fun null => proper (congrArg some null)
    have tag : (h.setVersion (.forwarded a)).flags &&& Flag.tags = Flag.forwarded := Flag.retag h.flags (by decide)
    have other : ¬ (h.setVersion (.forwarded a)).flags &&& Flag.tags = Flag.copyOf := tag ▸ by decide
    exact (if_neg present).trans ((if_neg other).trans (if_pos tag))

theorem sameOff_setVersion (fits : h.Fits) (v : Version) : SameOff Flag.tags h (h.setVersion v) := by
  refine ⟨by cases v <;> rfl, fun i clear => ?_⟩
  have kept := Flag.testBit_and_untagged fits.flags_lt clear
  have split : Flag.tags = Flag.copyOf ||| Flag.forwarded := by decide
  rw [split, Nat.testBit_or, Bool.or_eq_false_iff] at clear
  cases v with
  | empty => exact kept
  | copyOf a => exact (Nat.testBit_or ..).trans (by rw [kept, clear.1, Bool.or_false])
  | forwarded a => exact (Nat.testBit_or ..).trans (by rw [kept, clear.2, Bool.or_false])

theorem sameOff_markCopied (h : Header) : SameOff Flag.copied h h.markCopied :=
  ⟨rfl, fun i clear => by rw [markCopied, Nat.testBit_or, clear, Bool.or_false]⟩

theorem version_markCopied (h : Header) : h.markCopied.version = h.version := by
  have tags : (h.flags ||| Flag.copied) &&& Flag.tags = h.flags &&& Flag.tags := by
    rw [Nat.and_or_distrib_right, show Flag.copied &&& Flag.tags = 0 by decide, Nat.or_zero]
  simp only [version, markCopied, tags]

theorem markCopied_markCopied (h : Header) : h.markCopied.markCopied = h.markCopied := by
  simp only [markCopied, Nat.or_assoc, Nat.or_self]

/-- Headers that are equal once both are marked have the same type, and both or none are of a shared object. -/
theorem of_markCopied (e : h'.markCopied = h.markCopied) : h'.typeId = h.typeId ∧ h'.isGlobal = h.isGlobal := by
  have typeId (h : Header) : h.markCopied.typeId = h.typeId := (sameOff_markCopied h).typeId
  have global (h : Header) : h.markCopied.isGlobal = h.isGlobal := (sameOff_markCopied h).flags 0 (by decide)
  exact ⟨by rw [← typeId h', e, typeId h], by rw [← global h', e, global h]⟩

theorem isCopied_markCopied (h : Header) : h.markCopied.isCopied = true := by
  rw [isCopied, markCopied, Nat.testBit_or, show Flag.copied.testBit 1 = true by decide, Bool.or_true]

/-! ## Headers that fit their words -/

theorem fits_new {typeId flags : Nat} (typeId_lt : typeId < idLimit) (flags_lt : flags < idLimit) :
    (Header.new typeId flags).Fits :=
  ⟨typeId_lt, Nat.lt_of_le_of_lt Nat.and_le_left flags_lt, wordLimit_pos⟩

theorem fits_decode {first second : Nat} (first_lt : first < wordLimit) (second_lt : second < wordLimit) :
    (decode first second).Fits :=
  ⟨Nat.mod_lt _ (by decide), Nat.div_lt_of_lt_mul first_lt, second_lt⟩

theorem fits_markCopied (fits : h.Fits) : h.markCopied.Fits :=
  ⟨fits.typeId_lt, Nat.or_lt_two_pow (n := 32) fits.flags_lt (by decide), fits.slot_lt⟩

theorem fits_setVersion (fits : h.Fits) (word : ∀ a, v.address? = some a → a < wordLimit) : (h.setVersion v).Fits := by
  have flags : h.flags &&& Flag.untagged < 2 ^ 32 := Nat.lt_of_le_of_lt Nat.and_le_left fits.flags_lt
  cases v with
  | empty => exact ⟨fits.typeId_lt, flags, wordLimit_pos⟩
  | copyOf a => exact ⟨fits.typeId_lt, Nat.or_lt_two_pow flags (by decide), word a rfl⟩
  | forwarded a => exact ⟨fits.typeId_lt, Nat.or_lt_two_pow flags (by decide), word a rfl⟩

/-- In the words, marking sets one bit of the first. -/
theorem encode_markCopied (fits : h.Fits) :
    h.markCopied.encode = (h.encode.1 ||| Flag.copied <<< 32, h.encode.2) := by
  have word (flags : Nat) : h.typeId + idLimit * flags = flags <<< 32 ||| h.typeId := by
    rw [Nat.add_comm, Nat.shiftLeft_eq, Nat.mul_comm flags]
    exact Nat.two_pow_add_eq_or_of_lt (i := 32) fits.typeId_lt flags
  refine Prod.ext ?_ rfl
  show h.typeId + idLimit * (h.flags ||| Flag.copied) = (h.typeId + idLimit * h.flags) ||| Flag.copied <<< 32
  rw [word, word, Nat.shiftLeft_or_distrib, Nat.or_assoc, Nat.or_comm (Flag.copied <<< 32), ← Nat.or_assoc]

def wordPairs : Set (Nat × Nat) := {w | w.1 < wordLimit ∧ w.2 < wordLimit}

theorem invOn_decode : Set.InvOn encode (fun w => decode w.1 w.2) wordPairs {h | h.Fits} :=
  ⟨fun w _ => encode_decode w.1 w.2, fun _ fits => decode_encode fits⟩

theorem bijOn_decode : Set.BijOn (fun w => decode w.1 w.2) wordPairs {h | h.Fits} :=
  invOn_decode.bijOn (fun _ hw => fits_decode hw.1 hw.2) fun _ fits => encode_lt fits

/-! ## Forwarding -/

theorem forward?_of_forwarded (hv : h.version = .forwarded a) : h.forward? twin = none := by
  rw [forward?, hv]

theorem forward?_of_open (hv : h.version.twin? = none) : h.forward? twin = some (h.setVersion (.forwarded twin)) := by
  unfold forward?
  split
  · rename_i forwarded
    rw [Version.twin?_eq_some.2 forwarded] at hv
    cases hv
  · rfl

theorem eq_of_forward? (installed : h.forward? twin = some h') : h' = h.setVersion (.forwarded twin) := by
  unfold forward? at installed
  split at installed
  · cases installed
  · exact (Option.some.inj installed).symm

inductive Made : Header → Prop
  | new {typeId flags : Nat} : typeId < idLimit → flags < idLimit → Made (.new typeId flags)
  | decode {first second : Nat} : first < wordLimit → second < wordLimit → Made (.decode first second)
  | markCopied {h : Header} : Made h → Made h.markCopied
  | setVersion {h : Header} {v : Version} : Made h → v.Fits → Made (h.setVersion v)
  | forward {h h' : Header} {twin : Nat} : Made h → (Version.forwarded twin).Fits → h.forward? twin = some h' → Made h'

theorem made_iff_fits : Made h ↔ h.Fits := by
  constructor
  · intro made
    induction made with
    | new typeId_lt flags_lt => exact fits_new typeId_lt flags_lt
    | decode first_lt second_lt => exact fits_decode first_lt second_lt
    | markCopied _ fits => exact fits_markCopied fits
    | setVersion _ hv fits => exact fits_setVersion fits fun a ha => (hv a ha).2
    | forward _ hv installed fits =>
      rw [eq_of_forward? installed]
      exact fits_setVersion fits fun a ha => (hv a ha).2
  · intro fits
    obtain ⟨first_lt, second_lt⟩ := encode_lt fits
    exact decode_encode fits ▸ .decode first_lt second_lt

/-! ## Touches -/

def recode (h : Header) : Header := .decode h.encode.1 h.encode.2

/-- What may be done to the header of an object that is to be promoted. -/
inductive Touch where
  /-- Offers a forwarding address. -/
  | forward (twin : Nat)
  | mark
  | recode
  deriving DecidableEq, Repr

namespace Touch

def offer? : Touch → Option Nat
  | .forward twin => some twin
  | _ => none

/-- Addresses are words and not null. -/
def Fits (t : Touch) : Prop := ∀ twin, t.offer? = some twin → (Version.forwarded twin).Fits

end Touch

/-- The address that a touch installs, if it installs one, and the header afterwards. -/
def touch (h : Header) : Touch → Option Nat × Header
  | .forward twin =>
    match h.forward? twin with
    | some forwarded => (some twin, forwarded)
    | none => (none, h)
  | .mark => (none, h.markCopied)
  | .recode => (none, h.recode)

def touchAll (h : Header) : List Touch → List Nat × Header
  | [] => ([], h)
  | t :: ts =>
    let (installed, touched) := h.touch t
    let (rest, last) := touched.touchAll ts
    (installed.toList ++ rest, last)

def offers (ts : List Touch) : List Nat := ts.filterMap Touch.offer?

section

variable {t : Touch} {ts : List Touch}

theorem touch_of_forwarded (fits : h.Fits) (hv : h.version = .forwarded a) (t : Touch) :
    (h.touch t).1 = none ∧ (h.touch t).2.version = .forwarded a := by
  cases t with
  | forward twin =>
    rw [touch, forward?_of_forwarded hv]
    exact ⟨rfl, hv⟩
  | mark => exact ⟨rfl, (version_markCopied h).trans hv⟩
  | recode => exact ⟨rfl, (congrArg version (decode_encode fits)).trans hv⟩

theorem touch_of_open (fits : h.Fits) (hv : h.version.twin? = none) (ht : t.Fits) :
    (h.touch t).1 = t.offer? ∧ (h.touch t).2.version = (t.offer?.map .forwarded).getD h.version := by
  cases t with
  | forward twin =>
    rw [touch, forward?_of_open hv]
    exact ⟨rfl, version_setVersion h fun null => (ht twin rfl 0 null).1 rfl⟩
  | mark => exact ⟨rfl, version_markCopied h⟩
  | recode => exact ⟨rfl, congrArg version (decode_encode fits)⟩

/-- A touch keeps the header within its words, and of it all but the tags and the mark. -/
theorem sameOff_touch (fits : h.Fits) (ht : t.Fits) :
    (h.touch t).2.Fits ∧ SameOff (Flag.tags ||| Flag.copied) h (h.touch t).2 ∧
      (h.touch t).2.isCopied = (h.isCopied || decide (.mark = t)) := by
  cases t with
  | forward twin =>
    rw [touch]
    split
    · rename_i installed
      rw [eq_of_forward? installed]
      have same := sameOff_setVersion fits (.forwarded twin)
      exact ⟨fits_setVersion fits fun a ha => (ht twin rfl a ha).2, same.left,
        (same.flags 1 (by decide)).trans (Bool.or_false _).symm⟩
    · exact ⟨fits, .refl _ h, (Bool.or_false _).symm⟩
  | mark =>
    exact ⟨fits_markCopied fits, (sameOff_markCopied h).right, (isCopied_markCopied h).trans (Bool.or_true _).symm⟩
  | recode =>
    rw [touch, recode, decode_encode fits]
    exact ⟨fits, .refl _ h, (Bool.or_false _).symm⟩

theorem touchAll_of_forwarded (fits : h.Fits) (hts : ∀ t ∈ ts, t.Fits) (hv : h.version = .forwarded a) :
    (h.touchAll ts).1 = [] ∧ (h.touchAll ts).2.version = .forwarded a := by
  induction ts generalizing h with
  | nil => exact ⟨rfl, hv⟩
  | cons t ts ih =>
    obtain ⟨ht, hts⟩ := List.forall_mem_cons.1 hts
    obtain ⟨nothing, stays⟩ := touch_of_forwarded fits hv t
    obtain ⟨rest, last⟩ := ih (sameOff_touch fits ht).1 hts stays
    refine ⟨?_, last⟩
    show (h.touch t).1.toList ++ ((h.touch t).2.touchAll ts).1 = []
    rw [nothing, rest]
    rfl

theorem touchAll_of_open (fits : h.Fits) (hts : ∀ t ∈ ts, t.Fits) (hv : h.version.twin? = none) :
    (h.touchAll ts).1 = (offers ts).take 1 ∧
      (h.touchAll ts).2.version = ((offers ts).head?.map .forwarded).getD h.version := by
  induction ts generalizing h with
  | nil => exact ⟨rfl, rfl⟩
  | cons t ts ih =>
    obtain ⟨ht, hts⟩ := List.forall_mem_cons.1 hts
    obtain ⟨installed, version⟩ := touch_of_open fits hv ht
    have fits' := (sameOff_touch fits ht).1
    have first : (h.touchAll (t :: ts)).1 = (h.touch t).1.toList ++ ((h.touch t).2.touchAll ts).1 := rfl
    rw [first, installed]
    cases offered : t.offer? with
    | some twin =>
      -- from here on the slot is taken
      rw [offered] at version
      obtain ⟨rest, last⟩ := touchAll_of_forwarded fits' hts version
      have all : offers (t :: ts) = twin :: offers ts := List.filterMap_cons_some offered
      rw [rest, all]
      exact ⟨rfl, last⟩
    | none =>
      rw [offered] at version
      obtain ⟨rest, last⟩ := ih fits' hts (version ▸ hv)
      have all : offers (t :: ts) = offers ts := List.filterMap_cons_none offered
      rw [rest, all, ← show (h.touch t).2.version = h.version from version]
      exact ⟨rfl, last⟩

theorem sameOff_touchAll (fits : h.Fits) (hts : ∀ t ∈ ts, t.Fits) :
    (h.touchAll ts).2.Fits ∧ SameOff (Flag.tags ||| Flag.copied) h (h.touchAll ts).2 ∧
      (h.touchAll ts).2.isCopied = (h.isCopied || decide (.mark ∈ ts)) := by
  induction ts generalizing h with
  | nil => exact ⟨fits, .refl _ h, (Bool.or_false _).symm⟩
  | cons t ts ih =>
    obtain ⟨ht, hts⟩ := List.forall_mem_cons.1 hts
    obtain ⟨fits', same, copied⟩ := sameOff_touch fits ht
    obtain ⟨last, same', copied'⟩ := ih fits' hts
    refine ⟨last, same.trans same', copied'.trans ?_⟩
    rw [copied, Bool.or_assoc, ← Bool.decide_or]
    exact congrArg (h.isCopied || ·) (decide_eq_decide.2 List.mem_cons.symm)

theorem touchAll_append (h : Header) (ts ts' : List Touch) :
    (h.touchAll (ts ++ ts')).2 = ((h.touchAll ts).2.touchAll ts').2 := by
  induction ts generalizing h with
  | nil => rfl
  | cons t ts ih => exact ih (h.touch t).2

theorem version_of_installed (fits : h.Fits) (hts : ∀ t ∈ ts, t.Fits) (installed : a ∈ (h.touchAll ts).1) :
    (h.touchAll ts).2.version = .forwarded a := by
  cases hv : h.version.twin? with
  | some b =>
    rw [(touchAll_of_forwarded fits hts (Version.twin?_eq_some.1 hv)).1] at installed
    cases installed
  | none =>
    obtain ⟨first, last⟩ := touchAll_of_open fits hts hv
    rw [first] at installed
    cases offered : offers ts with
    | nil => rw [offered] at installed; cases installed
    | cons b rest =>
      rw [offered] at installed
      rw [last, offered, List.mem_singleton.1 installed]
      rfl

end

/-! ## The codec -/

/-- What memory keeps of a header, and the header of what is put into its slot. -/
structure Faithful (h : Header) : Prop where
  recoded : h.recode = h
  /-- Where a header can be read, this one can be stored and is read from then on. -/
  stored : ∀ (a : Arena) (obj : Nat), (∃ g, a.header obj = .ok g) → ∃ b, a.setHeader obj h = .ok b ∧ b.header obj = .ok h
  /-- To store it where it was read changes no byte. -/
  settled : ∀ (a : Arena) (obj : Nat), a.header obj = .ok h → a.setHeader obj h = .ok a
  set : ∀ v : Version, v.Fits → (h.setVersion v).version = v ∧ SameOff Flag.tags h (h.setVersion v) ∧
    (h.setVersion v).isGlobal = h.isGlobal ∧ (h.setVersion v).isCopied = h.isCopied
  marked : h.markCopied.isCopied = true ∧ SameOff Flag.copied h h.markCopied ∧
    h.markCopied.version = h.version ∧ h.markCopied.recode.version = h.version
  /-- In the words, marking sets one bit. -/
  marked_words : h.markCopied.encode = (h.encode.1 ||| Flag.copied <<< 32, h.encode.2)
  /-- Where an address was installed, no other is. -/
  forwarded : ∀ a, h.version = .forwarded a → ∀ ts : List Touch, (∀ t ∈ ts, t.Fits) →
    (h.touchAll ts).1 = [] ∧ (h.touchAll ts).2.version = .forwarded a
  /-- Where none was, the first that is offered is installed and no other. -/
  unforwarded : h.version.twin? = none → ∀ ts : List Touch, (∀ t ∈ ts, t.Fits) →
    (h.touchAll ts).1 = (offers ts).take 1 ∧
      (h.touchAll ts).2.version = ((offers ts).head?.map .forwarded).getD h.version
  /-- An address that was installed is read forever after. -/
  lasting : ∀ ts ts' : List Touch, (∀ t ∈ ts ++ ts', t.Fits) →
    ∀ a ∈ (h.touchAll ts).1, (h.touchAll (ts ++ ts')).2.version = .forwarded a
  touched : ∀ ts : List Touch, (∀ t ∈ ts, t.Fits) → SameOff (Flag.tags ||| Flag.copied) h (h.touchAll ts).2 ∧
    (h.touchAll ts).2.isCopied = (h.isCopied || decide (.mark ∈ ts))

theorem Fits.faithful (fits : h.Fits) : h.Faithful where
  recoded := decode_encode fits
  stored a obj := by
    rintro ⟨g, read⟩
    obtain ⟨b, stored⟩ : ∃ b, a.setHeader obj h = .ok b :=
      ⟨_, Arena.setHeader_eq_ok.2 ⟨(Arena.header_eq_ok.1 read).1, rfl⟩⟩
    exact ⟨b, stored, Arena.header_of_setHeader fits stored⟩
  settled _ _ := Arena.setHeader_of_header
  set v hv := by
    have same := sameOff_setVersion fits v
    exact ⟨version_setVersion h fun null => (hv 0 null).1 rfl, same, same.flags 0 (by decide), same.flags 1 (by decide)⟩
  marked := by
    have recoded : h.markCopied.recode = h.markCopied := decode_encode (fits_markCopied fits)
    rw [recoded]
    exact ⟨isCopied_markCopied h, sameOff_markCopied h, version_markCopied h, version_markCopied h⟩
  marked_words := encode_markCopied fits
  forwarded _ hv _ hts := touchAll_of_forwarded fits hts hv
  unforwarded hv _ hts := touchAll_of_open fits hts hv
  lasting ts ts' hts a installed := by
    obtain ⟨before, after⟩ := List.forall_mem_append.1 hts
    rw [touchAll_append]
    exact (touchAll_of_forwarded (sameOff_touchAll fits before).1 after (version_of_installed fits before installed)).2
  touched _ hts := (sameOff_touchAll fits hts).2

/-- Coding is one to one between pairs of words and headers, and every header is faithful. -/
theorem codec_is_faithful :
    Set.BijOn (fun w => decode w.1 w.2) wordPairs {h | Made h} ∧
      Set.InvOn encode (fun w => decode w.1 w.2) wordPairs {h | Made h} ∧ ∀ h, Made h → h.Faithful := by
  have made : {h | Made h} = {h : Header | h.Fits} := Set.ext fun _ => made_iff_fits
  rw [made]
  exact ⟨bijOn_decode, invOn_decode, fun h made => (made_iff_fits.1 made).faithful⟩

/-- A slot with both tags over an address reads as empty and is coded as it is; of two addresses it takes the first. -/
theorem codec_is_faithful_contradictory :
    let h := decode 0xc00000007 0x1000
    let ts := [Touch.mark, .forward 0x5000, .recode, .forward 0x6000]
    Made h ∧ h.version = .empty ∧ h.encode = (0xc00000007, 0x1000) ∧ h.Faithful ∧
      h.touchAll ts = ([0x5000], ⟨7, Flag.copied ||| Flag.forwarded, 0x5000⟩) := by
  intro h ts
  have made : Made h := .decode (by decide) (by decide)
  exact ⟨made, by decide, by decide, codec_is_faithful.2.2 h made, by decide⟩

end Header

end TxHeap
