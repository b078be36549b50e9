import LedgerGateway.Proofs.Json.Acceptance
import LedgerGateway.Proofs.Json.Position
import LedgerGateway.Proofs.Json.Printing
import LedgerGateway.Proofs.Text.Repair
import Mathlib.Data.List.TakeWhile

/-!
# The layout keeps count

The layout goes through a JSON text by its characters and remembers a depth and two flags.  It does
not know of arrays and objects, only of brackets: it would take any closing bracket for the partner
of any opening one, and the depth would stay at 0 if too many were closed.  On JSON neither happens
(`Layout.follows_nesting`).

The invariant is `Layout.Fits`: between two steps the depth is the number of containers that are
open there with something in them, and the flags tell whether the place is inside a text, and
whether the last backslash of it still waits for its partner.  One step of the layout may go over
several places of the text, so the invariant is carried by the lazy layout, which stands at every
place.  It is kept there by every part of a text (`LazyLayout.Fits.read_fills`,
`LazyLayout.Fits.read_before`, `LazyLayout.Fits.read_name`), so it holds in front of every value and
name (`Around.fits`) and at every place (`Position.Between.fits`).
-/

namespace LedgerGateway.Json

open LazyLayout

/-! ### What positions are between -/

theorem Fills.read {n : Bool} {b : Bytes} (h : Fills n b) (w : String) (d : Nat) :
    ∃ v, LazyLayout.read ⟨w, d, .plain⟩ b = ⟨v, d, .plain⟩ := by
  cases h with
  | value hv => exact ⟨_, hv.read w d⟩
  | name t => exact ⟨_, read_quoted t w⟩

theorem Row.read {k : Container} {b : Bytes} (h : Row k b) (w : String) (d : Nat) :
    ∃ v, LazyLayout.read ⟨w, d, .plain⟩ b = ⟨v, d, .plain⟩ := by
  cases h with
  | items hitems => exact ⟨_, hitems.read w d⟩
  | members hmembers => exact ⟨_, hmembers.read w d⟩

theorem Value.Written.isWord {v : Value} {b : Bytes} (h : v.Written b) (hbare : v.IsBare) :
    IsWord b := by
  cases h with
  | null => decide
  | true => decide
  | false => decide
  | number n => exact isWord_of_isNumber n.isNumber
  | text _ => exact hbare.elim
  | emptyArray _ => exact hbare.elim
  | array _ => exact hbare.elim
  | emptyObject _ => exact hbare.elim
  | object _ => exact hbare.elim

theorem Container.opening_ascii (k : Container) : k.opening < 0x80 := by cases k <;> decide

theorem Fills.startsAscii {n : Bool} {b : Bytes} (h : Fills n b) (c : Bytes) :
    Text.StartsAscii (b ++ c) := by
  obtain ⟨x, rest, rfl, hx⟩ := h.head
  exact Text.startsAscii_cons hx.1 _

/-! ### How the layout stands at a position -/

/-- Between two steps the layout stands as it should at a position: it is as deep as there are
containers with something in them, it is inside a text exactly if the position is, and behind a
backslash there exactly if that has no partner yet.  In an empty container it never stands. -/
def Layout.Fits (l : Layout) : Position → Prop
  | .outside _ e => l.inText = false ∧ l.escaped = false ∧ l.depth = e.length
  | .empty _ _ => False
  | .text e b => l.inText = true ∧ (l.escaped = true ↔ EndsUnpaired b) ∧ l.depth = e.length

namespace LazyLayout

theorem read_start (text : String) : start.read (Text.encodeUtf8 text) = after text.toList := by
  rw [read, Text.decodeLossy_encodeUtf8, after]

/-- The same for the lazy layout, which may stand anywhere.  In front of what comes first in a
container it is about to go one deeper. -/
def Fits (m : LazyLayout) : Position → Prop
  | .outside false e => m.mode = .plain ∧ m.depth = e.length
  | .outside true e => m.mode = .opened ∧ m.depth + 1 = e.length
  | .empty _ _ => m.mode = .opened
  | .text e b => m.mode = (if EndsUnpaired b then .escaped else .text) ∧ m.depth = e.length

variable {m : LazyLayout} {n f : Bool} {e : List Container} {k : Container} {x : UInt8}
  {b c s t : Bytes}

theorem Fits.eq (h : m.Fits (.outside false e)) : m = ⟨m.written, e.length, .plain⟩ := by
  obtain ⟨hmode, hdepth⟩ := h
  rw [← hmode, ← hdepth]

/-- Whether a line is to be begun or not, what comes next is read in a line. -/
theorem Fits.read_eq (h : m.Fits (.outside f e))
    (hb : ∃ s x rest, b = s ++ x :: rest ∧ IsBlank s ∧ BeginsValue x) :
    ∃ w, m.read b = read ⟨w, e.length, .plain⟩ b := by
  cases f with
  | false => exact ⟨m.written, congrArg (read · b) h.eq⟩
  | true =>
    obtain ⟨w, d, mode⟩ := m
    obtain ⟨hmode, hdepth⟩ := h
    obtain rfl : mode = .opened := hmode
    have hlength : d + 1 = e.length := hdepth
    exact ⟨w ++ lineBreak (d + 1), by rw [read_first hb, hlength]⟩

theorem Fits.read_cons (h : m.Fits (.outside f e)) (hx : BeginsValue x) (b : Bytes) :
    ∃ w, m.read (x :: b) = read ⟨w, e.length, .plain⟩ (x :: b) :=
  h.read_eq ⟨[], x, b, rfl, isBlank_nil, hx⟩

theorem Fits.read_blank (h : m.Fits (.outside f e)) (hs : IsBlank s) : m.read s = m := by
  have hmode : m.mode = .plain ∨ m.mode = .opened := by
    cases f with
    | false => exact .inl h.1
    | true => exact .inr h.1
  exact read_of_isBlank hmode hs

theorem Fits.read_fills (h : m.Fits (.outside f e)) (hb : Fills n b) :
    (m.read b).Fits (.outside false e) := by
  obtain ⟨x, rest, rfl, hx⟩ := hb.head
  obtain ⟨w, hw⟩ := h.read_cons hx rest
  obtain ⟨v, hv⟩ := hb.read w e.length
  rw [hw, hv]
  exact ⟨rfl, rfl⟩

/-- A part of a number or word. -/
theorem Fits.read_word (h : m.Fits (.outside f e)) (hb : IsWord b) (hne : b ≠ []) :
    (m.read b).Fits (.outside false e) := by
  obtain ⟨x, rest, rfl⟩ := List.exists_cons_of_ne_nil hne
  obtain ⟨hascii, hspace, -, -, -, harray, hobject, -, -⟩ := hb x List.mem_cons_self
  obtain ⟨w, hw⟩ := h.read_cons ⟨hascii, hspace, harray, hobject⟩ rest
  rw [hw, read_of_isWord hb]
  exact ⟨rfl, rfl⟩

theorem Fits.read_text (h : m.Fits (.outside f e)) (hb : IsContent (b ++ c)) :
    (m.read (0x22 :: b)).Fits (.text e b) := by
  obtain ⟨w, hw⟩ := h.read_cons (x := 0x22) (by decide) b
  have hopen : step ⟨w, e.length, .plain⟩ (Char.ofNat (0x22 : UInt8).toNat) =
      ⟨w.push '"', e.length, .text⟩ := rfl
  rw [hw, LazyLayout.read_cons _ (by decide), hopen, read_unfinished hb]
  exact ⟨rfl, rfl⟩

theorem Fits.read_opening (h : m.Fits (.outside f e)) (k : Container) :
    ∃ w, m.read (k.opening :: b) = read ⟨w, e.length, .opened⟩ b := by
  have hopening : (k.opening = 0x5B ∨ k.opening = 0x7B) ∧ BeginsValue k.opening := by
    cases k <;> decide
  obtain ⟨w, hw⟩ := h.read_cons hopening.2 b
  exact ⟨_, hw.trans (LazyLayout.read_opening hopening.1 w b)⟩

/-- In front of an item or member. -/
theorem Fits.read_before (h : m.Fits (.outside f e)) (hb : RowBefore k b) :
    (m.read (k.opening :: b)).Fits (.outside b.isEmpty (k :: e)) := by
  obtain ⟨w, hw⟩ := h.read_opening (b := b) k
  have hopened : Fits ⟨w, e.length, .opened⟩ (.outside true (k :: e)) := ⟨rfl, rfl⟩
  rw [hw]
  cases hb with
  | none => rwa [read_nil]
  | @some b hrow =>
    obtain ⟨s, x, rest, hrest, hs, hx⟩ := hrow.head
    obtain ⟨v, hv⟩ := hopened.read_eq (b := b ++ [0x2C])
      ⟨s, x, rest ++ [0x2C], by simp [hrest], hs, hx⟩
    obtain ⟨u, hu⟩ := hrow.read v (k :: e).length
    have hfalse : (b ++ [0x2C]).isEmpty = false := by simp
    rw [hv, read_append _ _ (Text.startsAscii_cons (by decide) _), hu, read_comma, read_nil, hfalse]
    exact ⟨rfl, rfl⟩

theorem Fits.read_name (h : m.Fits (.outside f e)) (name : TextLiteral) (hs : IsBlank s)
    (ht : IsBlank t) :
    (m.read (s ++ (name.quoted ++ (t ++ [0x3A])))).Fits (.outside false e) := by
  obtain ⟨w, hw⟩ := h.read_eq (b := s ++ (name.quoted ++ (t ++ [0x3A])))
    ⟨s, 0x22, _, rfl, hs, by decide⟩
  rw [hw, Json.read_name name hs ht, read_nil]
  exact ⟨rfl, rfl⟩

end LazyLayout

/-! ### At every position -/

section Positions

variable {n f : Bool} {e : List Container} {a b c : Bytes}

/-- **Before a value or name the layout is as deep as it is in containers.**  The induction goes
from the whole text inwards. -/
theorem Around.fits (h : Around n f e a c) : (start.read a).Fits (.outside f e) := by
  induction h with
  | whole =>
    rw [read_nil]
    exact ⟨rfl, rfl⟩
  | @space n f e a c s t _ hs _ ih =>
    rwa [read_append _ _ (startsAscii_of_isBlank hs), ih.read_blank hs]
  | item _ hb _ ih =>
    rw [read_append _ _ (Text.startsAscii_cons (by decide) _)]
    exact ih.read_before (k := .array) hb
  | name _ hb _ _ ih =>
    rw [read_append _ _ (Text.startsAscii_cons (by decide) _)]
    exact ih.read_before (k := .object) hb
  | @member f e a c b s t d name _ hb hs ht _ ih =>
    have hstarts := startsAscii_blank hs ((Fills.name name).startsAscii (t ++ [0x3A]))
    rw [← List.cons_append, ← List.append_assoc, read_append _ _ hstarts,
      read_append _ _ (Text.startsAscii_cons (by decide) _)]
    exact (ih.read_before (k := .object) hb).read_name name hs ht

/-- **The layout stands as it should at every position.** -/
theorem Position.Between.fits {p : Position} (h : p.Between a c) : (start.read a).Fits p := by
  cases h with
  | before hp _ _ => exact hp.fits
  | @behind n f e a c b t hp hb ht =>
    rw [read_append _ _ (hb.startsAscii t), read_append _ _ (startsAscii_of_isBlank ht),
      (hp.fits.read_fills hb).read_blank ht]
    exact hp.fits.read_fills hb
  | @word f e a c b d v hp hbare hv hb _ =>
    have hword : IsWord b := fun x hx => hv.isWord hbare x (List.mem_append_left d hx)
    obtain ⟨x, rest, rfl⟩ := List.exists_cons_of_ne_nil hb
    rw [read_append _ _ (Text.startsAscii_cons (hword x List.mem_cons_self).1 _)]
    exact hp.fits.read_word hword hb
  | text hp hb =>
    rw [read_append _ _ (Text.startsAscii_cons (by decide) _)]
    exact hp.fits.read_text hb
  | @empty f e a c s t k hp hs ht =>
    obtain ⟨w, hw⟩ := hp.fits.read_opening (b := s) k
    rw [read_append _ _ (Text.startsAscii_cons k.opening_ascii _), hw,
      read_of_isBlank (.inr rfl) hs]
    exact rfl

/-! ### Closing brackets -/

variable {x : UInt8}

/-- Behind the outermost value there is nothing but white space. -/
theorem Around.isBlank_of_outermost (h : Around n f e a c) (he : e = []) : IsBlank c := by
  induction h with
  | whole => exact isBlank_nil
  | space _ _ ht ih => exact ht.append (ih he)
  | item _ _ _ _ => cases he
  | name _ _ _ _ _ => cases he
  | member _ _ _ _ _ _ => cases he

theorem IsSpace.not_closing (hx : IsSpace x) : ¬ (x = 0x5D ∨ x = 0x7D) := by
  rcases hx with rfl | rfl | rfl | rfl <;> decide

/-- A bracket that closes outside of empty containers closes one that has something in it. -/
theorem Position.Between.ne_nil_of_closing (h : (Position.outside f e).Between a (x :: c))
    (hx : x = 0x5D ∨ x = 0x7D) : f = false ∧ e ≠ [] := by
  generalize hc : x :: c = d at h
  cases h with
  | @before n f e a c' s b hp hs hb =>
    obtain ⟨y, rest, rfl, -, -, harray, hobject⟩ := hb.head
    cases s with
    | nil =>
      obtain ⟨rfl, -⟩ := List.cons.inj hc
      exact absurd hx (not_or.mpr ⟨harray, hobject⟩)
    | cons z s =>
      obtain ⟨rfl, -⟩ := List.cons.inj hc
      exact absurd hx (hs x List.mem_cons_self).not_closing
  | behind hp _ _ =>
    refine ⟨rfl, fun he => ?_⟩
    have hblank := hp.isBlank_of_outermost he
    rw [← hc] at hblank
    exact absurd hx (hblank x List.mem_cons_self).not_closing
  | @word f e a c' b d v hp hbare hv _ hd =>
    obtain ⟨y, d, rfl⟩ := List.exists_cons_of_ne_nil hd
    obtain ⟨rfl, -⟩ := List.cons.inj hc
    have hcopied := hv.isWord hbare x (List.mem_append_right b List.mem_cons_self)
    exact absurd hx (not_or.mpr ⟨hcopied.2.2.2.2.2.1, hcopied.2.2.2.2.2.2.1⟩)

/-- A bracket that closes an empty container is the one that belongs to it. -/
theorem Position.Between.closing_eq {k : Container} (h : (Position.empty k e).Between a (x :: c))
    (hx : x = 0x5D ∨ x = 0x7D) :
    x = k.closing ∧ ∃ b s, a = b ++ k.opening :: s ∧ IsBlank s := by
  generalize hc : x :: c = d at h
  cases h with
  | @empty f e a c' s t k hp hs ht =>
    refine ⟨?_, a, s, rfl, hs⟩
    cases t with
    | nil => exact (List.cons.inj hc).1
    | cons z t =>
      obtain ⟨rfl, -⟩ := List.cons.inj hc
      exact absurd hx (ht x List.mem_cons_self).not_closing

end Positions

/-! ### Characters and their bytes -/

open Text (encodeUtf8 encodeUtf8_append)

section Characters

variable {x : Char} {y : UInt8} {b : Bytes}

/-- A text whose first byte is ASCII begins with that character. -/
theorem exists_cons_of_encodeUtf8 {rest : List Char} (h : encodeUtf8 (.ofList rest) = y :: b)
    (hy : y < 0x80) : ∃ behind, rest = Char.ofNat y.toNat :: behind := by
  have htext : String.ofList rest =
      String.singleton (Char.ofNat y.toNat) ++ Text.decodeLossy b := by
    rw [← Text.decodeLossy_encodeUtf8 (.ofList rest), h, Text.decodeLossy_cons_of_ascii hy]
  refine ⟨(Text.decodeLossy b).toList, ?_⟩
  rw [← String.toList_ofList (l := rest), htext, String.toList_append, String.toList_singleton,
    List.singleton_append]

theorem encodeUtf8_cons (x : Char) (rest : List Char) : encodeUtf8 (.ofList (x :: rest)) =
    encodeUtf8 (.singleton x) ++ encodeUtf8 (.ofList rest) := by
  rw [String.ofList_cons, encodeUtf8_append]

/-- An opening bracket is that of a container. -/
theorem exists_opening (hx : Layout.isOpening x = true) : ∃ k : Container,
    encodeUtf8 (.singleton x) = [k.opening] := by
  have hchar : x = '[' ∨ x = '\x7b' := by simpa [Layout.isOpening] using hx
  rcases hchar with rfl | rfl
  · exact ⟨.array, by decide⟩
  · exact ⟨.object, by decide⟩

/-- A closing bracket is that of a container. -/
theorem exists_closing (hx : Layout.isClosing x = true) : ∃ k : Container,
    encodeUtf8 (.singleton x) = [k.closing] := by
  have hchar : x = ']' ∨ x = '\x7d' := by simpa [Layout.isClosing] using hx
  rcases hchar with rfl | rfl
  · exact ⟨.array, by decide⟩
  · exact ⟨.object, by decide⟩

theorem Container.not_isSpace_opening (k : Container) : ¬ IsSpace k.opening := by
  cases k <;> decide

theorem Container.closing_cases (k : Container) : k.closing = 0x5D ∨ k.closing = 0x7D := by
  cases k <;> decide

theorem isBlank_encodeUtf8 : ∀ {s : List Char}, (∀ x ∈ s, Layout.isSpace x = true) →
    IsBlank (encodeUtf8 (.ofList s)) := by
  intro s hs
  induction s with
  | nil => exact isBlank_nil
  | cons x s ih =>
    obtain ⟨hx, hs⟩ := List.forall_mem_cons.mp hs
    have hchar : ((x = ' ' ∨ x = '\t') ∨ x = '\n') ∨ x = '\r' := by
      simpa [Layout.isSpace] using hx
    rw [encodeUtf8_cons]
    refine IsBlank.append ?_ (ih hs)
    rcases hchar with ((rfl | rfl) | rfl) | rfl <;> decide

/-- The last byte in front of white space is one and the same. -/
theorem eq_of_append_blank {a b s t : Bytes} {x y : UInt8} (h : a ++ x :: s = b ++ y :: t)
    (hs : IsBlank s) (ht : IsBlank t) (hx : ¬ IsSpace x) (hy : ¬ IsSpace y) : x = y := by
  rcases List.append_eq_append_iff.mp h with ⟨c, -, hc⟩ | ⟨c, -, hc⟩
  · cases c with
    | nil => exact (List.cons.inj hc).1
    | cons z c =>
      have hmem : y ∈ s := (List.cons.inj hc).2 ▸ List.mem_append_right c List.mem_cons_self
      exact absurd (hs y hmem) hy
  · cases c with
    | nil => exact (List.cons.inj hc).1.symm
    | cons z c =>
      have hmem : x ∈ t := (List.cons.inj hc).2 ▸ List.mem_append_right c List.mem_cons_self
      exact absurd (ht x hmem) hx

end Characters

/-! ### The steps of the layout -/

/-- In an empty container there is only more white space to come, or the end of it. -/
theorem Position.Between.head_of_empty {k : Container} {e : List Container} {a c : Bytes}
    (h : (Position.empty k e).Between a c) :
    ∃ y d, c = y :: d ∧ (IsSpace y ∨ y = 0x5D ∨ y = 0x7D) := by
  cases h with
  | @empty f e a c s t k hp hs ht =>
    cases t with
    | nil => exact ⟨k.closing, c, rfl, .inr k.closing_cases⟩
    | cons y t => exact ⟨y, t ++ k.closing :: c, rfl, .inl (ht y List.mem_cons_self)⟩

namespace LazyLayout

variable {m : LazyLayout} {p : Position} {a : Bytes} {rest : List Char}

/-- Where the lazy layout stands as it should and has not to wait, the layout does, too. -/
theorem Fits.layout (h : m.Fits p) (hp : p.Between a (encodeUtf8 (.ofList rest)))
    (hsettled : m.IsSettled rest) : m.layout.Fits p := by
  obtain ⟨w, d, mode⟩ := m
  cases p with
  | outside f e =>
    cases f with
    | false =>
      obtain ⟨rfl, hdepth⟩ := h
      exact ⟨rfl, rfl, hdepth⟩
    | true =>
      obtain ⟨rfl, hdepth⟩ := h
      exact ⟨rfl, rfl, hdepth⟩
  | empty k e =>
    obtain ⟨y, c, hc, hy⟩ := hp.head_of_empty
    have hascii : y < 0x80 := by
      rcases hy with hy | rfl | rfl
      · exact IsSpace.ascii hy
      · decide
      · decide
    obtain ⟨behind, rfl⟩ := exists_cons_of_encodeUtf8 hc hascii
    obtain ⟨hspace, hclosing⟩ := hsettled h _ rfl
    rcases hy with hy | hy
    · rw [(isSpace_ofNat hascii).mpr hy] at hspace
      cases hspace
    · rw [(isClosing_ofNat hascii).mpr hy] at hclosing
      cases hclosing
  | text e b =>
    obtain ⟨rfl, hdepth⟩ := h
    by_cases hb : EndsUnpaired b
    · simp only [hb, if_true]
      exact ⟨rfl, iff_of_true rfl hb, hdepth⟩
    · simp only [hb, if_false]
      exact ⟨rfl, iff_of_false nofun hb, hdepth⟩

/-- Behind an opening bracket and white space the lazy layout waits. -/
theorem mode_after_opening {a s : List Char} {c : Char} (hsettled : (after a).IsSettled (c :: rest))
    (htext : (after a).layout.inText = false) (hc : Layout.isOpening c = true)
    (hs : ∀ x ∈ s, Layout.isSpace x = true) : (after (a ++ c :: s)).mode = .opened := by
  have htoken : token (after a).layout c =
      ⟨(after a).layout.written.push c, (after a).layout.depth, .opened⟩ := by
    simp [token, htext, hc]
  rw [after, List.foldl_append, List.foldl_cons, ← after, hsettled.step_eq, htoken]
  generalize (after a).layout.written.push c = w, (after a).layout.depth = d
  induction s with
  | nil => rfl
  | cons x s ih =>
    obtain ⟨hx, hs⟩ := List.forall_mem_cons.mp hs
    rw [List.foldl_cons, step_space (.inr rfl) hx]
    exact ih hs

end LazyLayout

namespace Layout

variable {text : String} {l : Layout} {c : Char} {rest : List Char}

/-- Wherever the layout stands between two steps, the place is a position, and it stands there as it
should. -/
theorem Reaches.fits {v : Value} (hv : v.Spaced (encodeUtf8 text)) (h : Reaches text l rest) :
    ∃ a, text = a ++ .ofList rest ∧
      (∃ p : Position, p.Between (encodeUtf8 a) (encodeUtf8 (.ofList rest))) ∧
      ∀ p : Position, p.Between (encodeUtf8 a) (encodeUtf8 (.ofList rest)) → l.Fits p := by
  obtain ⟨a, htext, rfl, hsettled⟩ := h.exists_after
  have hsplit : text = .ofList a ++ .ofList rest := by
    rw [← String.ofList_append, ← htext, String.ofList_toList]
  rw [hsplit, encodeUtf8_append] at hv
  refine ⟨.ofList a, hsplit, hv.exists_between, fun p hp => ?_⟩
  have hfits := hp.fits
  rw [read_start, String.toList_ofList] at hfits
  exact hfits.layout hp hsettled

/-- A closing bracket that is not taken along with an opening one ends a container that has been
counted. -/
theorem Reaches.depth_pos {v : Value} (hv : v.Spaced (encodeUtf8 text))
    (h : Reaches text l (c :: rest)) (htext : l.inText = false) (hc : isClosing c = true) :
    0 < l.depth := by
  obtain ⟨a, -, ⟨p, hp⟩, hfits⟩ := h.fits hv
  have hl := hfits p hp
  obtain ⟨k, hk⟩ := exists_closing hc
  rw [encodeUtf8_cons, hk, List.singleton_append] at hp
  cases p with
  | outside f e =>
    obtain ⟨-, -, hdepth⟩ := hl
    rw [hdepth]
    exact List.length_pos_iff.mpr (hp.ne_nil_of_closing k.closing_cases).2
  | empty k' e => exact hl.elim
  | text e b => exact absurd hl.1 (by simp [htext])

/-- A closing bracket that is taken along with an opening one belongs to it. -/
theorem Reaches.closes {v : Value} (hv : v.Spaced (encodeUtf8 text))
    (h : Reaches text l (c :: rest)) (htext : l.inText = false) (hc : isOpening c = true)
    {x : Char} {behind : List Char} (hrest : rest.dropWhile isSpace = x :: behind)
    (hx : isClosing x = true) : ∃ k : Container,
      encodeUtf8 (.singleton c) = [k.opening] ∧ encodeUtf8 (.singleton x) = [k.closing] := by
  obtain ⟨a, hsplit, rfl, hsettled⟩ := h.exists_after
  -- The place in question is in front of the closing bracket, where the layout does not stop.
  have hspaces : ∀ y ∈ rest.takeWhile isSpace, isSpace y = true := fun y hy =>
    List.mem_takeWhile_imp hy
  have hmode := LazyLayout.mode_after_opening hsettled htext hc hspaces
  have hplace : text = .ofList (a ++ c :: rest.takeWhile isSpace) ++ .ofList (x :: behind) := by
    rw [← String.ofList_append, List.append_assoc, List.cons_append, ← hrest,
      List.takeWhile_append_dropWhile, ← hsplit, String.ofList_toList]
  rw [hplace, encodeUtf8_append] at hv
  obtain ⟨p, hp⟩ := hv.exists_between
  have hfits := hp.fits
  rw [LazyLayout.read_start, String.toList_ofList] at hfits
  obtain ⟨k, hk⟩ := exists_closing hx
  obtain ⟨k', hk'⟩ := exists_opening hc
  rw [encodeUtf8_cons, hk, List.singleton_append] at hp
  cases p with
  | outside f e =>
    obtain ⟨rfl, -⟩ := hp.ne_nil_of_closing k.closing_cases
    exact absurd (hfits.1.symm.trans hmode) nofun
  | text e b =>
    have hne : (if EndsUnpaired b then LazyLayout.Mode.escaped else .text) ≠ .opened := by
      split <;> exact nofun
    exact absurd (hfits.1.symm.trans hmode) hne
  | empty k'' e =>
    obtain ⟨hclosing, b, s, hbytes, hs⟩ := hp.closing_eq k.closing_cases
    rw [String.ofList_append, encodeUtf8_append, encodeUtf8_cons, hk',
      List.singleton_append] at hbytes
    have hopening := eq_of_append_blank hbytes (isBlank_encodeUtf8 hspaces) hs
      k'.not_isSpace_opening k''.not_isSpace_opening
    exact ⟨k'', hopening ▸ hk', hclosing ▸ hk⟩

/-- **The layout follows the nesting of a JSON text and never relies on its guards.**  Wherever it
stands between two steps, that is a position, and it stands there as it should.  Where it goes one
less deep, the depth is not 0; and a closing bracket that it takes along with an opening one belongs
to that one.  The steps lead to the end of the text, and there nothing is open. -/
theorem follows_nesting {text : String} (htext : isJson (encodeUtf8 text) = true) :
    (∀ l rest, Reaches text l rest → ∃ a, text = a ++ .ofList rest ∧
      (∃ p : Position, p.Between (encodeUtf8 a) (encodeUtf8 (.ofList rest))) ∧
      ∀ p : Position, p.Between (encodeUtf8 a) (encodeUtf8 (.ofList rest)) → l.Fits p) ∧
    (∀ l c rest, Reaches text l (c :: rest) → l.inText = false → isClosing c = true →
      0 < l.depth) ∧
    (∀ l c rest x behind, Reaches text l (c :: rest) → l.inText = false → isOpening c = true →
      rest.dropWhile isSpace = x :: behind → isClosing x = true → ∃ k : Container,
        encodeUtf8 (.singleton c) = [k.opening] ∧ encodeUtf8 (.singleton x) = [k.closing]) ∧
    Reaches text (start.run text.toList) [] ∧ (start.run text.toList).depth = 0 ∧
      (start.run text.toList).inText = false ∧ (start.run text.toList).escaped = false := by
  obtain ⟨v, hv⟩ := isJson_iff.mp htext
  have hend := hv.run_layout
  rw [Text.decodeLossy_encodeUtf8] at hend
  refine ⟨fun _ _ h => h.fits hv, fun _ _ _ h => h.depth_pos hv, ?_, Reaches.start.run, ?_⟩
  · intro l c rest x behind h hl hc hrest hx
    exact h.closes hv hl hc hrest hx
  · rw [hend]
    exact ⟨rfl, rfl, rfl⟩

/-- An object with an empty array, under a name that holds an escaped backslash and a bracket. -/
def sampleText : String := "\x7b\"\\\\]\": [ ]\x7d"

/-- The place between the two backslashes of the name. -/
theorem between_sampleText : (Position.text [.object] [0x5C]).Between
    (encodeUtf8 "\x7b\"\\") (encodeUtf8 "\\]\": [ ]\x7d") := by
  have hvalue : (Value.array []).Spaced [0x20, 0x5B, 0x20, 0x5D] :=
    .intro (s := [0x20]) (t := []) (by decide) (.emptyArray (s := [0x20]) (by decide)) (by decide)
  have hname := Around.name .whole .none hvalue .none
  have hcontent : IsContent ([0x5C] ++ [0x5C, 0x5D]) :=
    .escape (by decide) (.plain (by decide) (by decide) (by decide) .nil)
  exact .text hname hcontent

theorem reaches_sampleText : Reaches sampleText start
    ['\x7b', '"', '\\', '\\', ']', '"', ':', ' ', '[', ' ', ']', '\x7d'] := by
  have htext : sampleText.toList =
      ['\x7b', '"', '\\', '\\', ']', '"', ':', ' ', '[', ' ', ']', '\x7d'] := by decide
  exact htext ▸ .start

theorem follows_nesting_sampleText :
    isJson (encodeUtf8 sampleText) = true ∧
      (∃ l, Reaches sampleText l ['\\', ']', '"', ':', ' ', '[', ' ', ']', '\x7d'] ∧
        l.inText = true ∧ l.escaped = true ∧ l.depth = 1) ∧
      (∃ l, Reaches sampleText l ['[', ' ', ']', '\x7d'] ∧ ∃ k : Container,
        encodeUtf8 (.singleton '[') = [k.opening] ∧ encodeUtf8 (.singleton ']') = [k.closing]) ∧
      (∃ l, Reaches sampleText l ['\x7d'] ∧ 0 < l.depth) ∧
      (start.run sampleText.toList).depth = 0 := by
  have hjson : isJson (encodeUtf8 sampleText) = true := by decide
  obtain ⟨hplaces, hdepth, hcloses, -, hend, -⟩ := follows_nesting hjson
  have hslash := reaches_sampleText.step.step.step
  have hopening := hslash.step.step.step.step.step
  have hclosing := hopening.step
  refine ⟨hjson, ⟨_, hslash, ?_⟩, ⟨_, hopening, ?_⟩, ⟨_, hclosing, ?_⟩, hend⟩
  · obtain ⟨a, hsplit, -, hfits⟩ := hplaces _ _ hslash
    have hlist := congrArg String.toList hsplit
    rw [String.toList_append, String.toList_ofList] at hlist
    obtain rfl : a = "\x7b\"\\" :=
      String.toList_inj.mp (List.append_cancel_right (hlist.symm.trans (by decide)))
    obtain ⟨htext, hescaped, hdepth⟩ := hfits _ between_sampleText
    exact ⟨htext, hescaped.mpr (by decide), hdepth⟩
  · exact hcloses _ _ _ ']' ['\x7d'] hopening rfl rfl (by decide) rfl
  · exact hdepth _ _ _ hclosing rfl rfl

end Layout

end LedgerGateway.Json
