import MessageConformance.Schema.Token
import Mathlib.Data.List.Chain

/-!
# Scanning what was scanned

What has been read of an unfinished part determines its place (`Place.Fits`), so the tokens of a
scan are sound, texts stand apart, and their sources make up the document (`Scanner.Fits`). In
turn the sources of such tokens are scanned to the same tokens (`finish_sources`). A token stays
sound in the form it is copied in (`Token.IsSound.copy`). Hence a document that is put together
from tokens is scanned to them exactly if they are sound (`scan_sources_iff`).
-/

namespace MessageConformance.Schema

open Bytes

/-- What holds of all elements of a list is decided by going through the list. -/
theorem forall_mem_of_all {α : Type} {p : α → Prop} [DecidablePred p] {xs : List α}
    (all : xs.all (fun x => decide (p x)) = true) : ∀ x ∈ xs, p x := by
  simpa using all

/-! ## Tokens -/

namespace Token

def isText : Token → Bool
  | .text _ => true
  | _ => false

/-- A token that is scanned where its copy stands. -/
def copy : Token → Token
  | .closing name _ => .closing name []
  | .documentType _ _ content => .documentType (ascii "DOCTYPE") [byte ' '] content
  | token => token

/-- Texts do not stand next to each other. -/
def Apart (t t' : Token) : Prop := ¬ (t.isText = true ∧ t'.isText = true)

@[simp] theorem source_copy (t : Token) : t.copy.source = t.written := by
  cases t with
  | closing name space => simp [copy, source, written]
  | documentType keyword space content => rfl
  | _ => rfl

@[simp] theorem isText_copy (t : Token) : t.copy.isText = t.isText := by
  cases t <;> rfl

end Token

/-- What has been read of the part at a place. -/
def Place.pending : Place → Bytes
  | .text raw => raw.reverse
  | .opened => [byte '<']
  | .tag _ raw => byte '<' :: raw.reverse
  | .closing _ raw => ascii "</" ++ raw.reverse
  | .bang => ascii "<!"
  | .comment raw | .literal raw | .documentType _ raw => ascii "<!" ++ raw.reverse
  | .instruction raw => ascii "<?" ++ raw.reverse
  | .failed => []

def Place.isText : Place → Bool
  | .text _ => true
  | _ => false

namespace Scanner

/-- Earlier tokens make no difference to a step. -/
theorem step_append (tokens earlier : List Token) (place : Place) (b : UInt8) :
    step ⟨tokens ++ earlier, place⟩ b =
      ⟨(step ⟨tokens, place⟩ b).tokens ++ earlier, (step ⟨tokens, place⟩ b).place⟩ := by
  have emitted (token? : Option Token) :
      (⟨tokens ++ earlier, place⟩ : Scanner).emit? token? =
        ⟨(emit? ⟨tokens, place⟩ token?).tokens ++ earlier, (emit? ⟨tokens, place⟩ token?).place⟩ := by
    cases token? <;> rfl
  cases place with
  | text raw =>
    simp only [step, endText, go]
    split
    · split <;> rfl
    · rfl
  | opened | tag quote raw =>
    simp only [step, stepTag, go, emit]
    repeat' split
    all_goals rfl
  | closing quote raw | bang | instruction raw =>
    simp only [step, go, emit]
    repeat' split
    all_goals rfl
  | comment raw | literal raw =>
    simp only [step]
    split
    · exact emitted _
    · rfl
  | documentType depth raw =>
    simp only [step]
    split
    · rfl
    · split
      · cases depth with
        | zero => exact emitted _
        | succ depth => rfl
      · rfl
  | failed => rfl

theorem foldl_step_append (content : Bytes) (tokens earlier : List Token) (place : Place) :
    content.foldl step ⟨tokens ++ earlier, place⟩ =
      ⟨(content.foldl step ⟨tokens, place⟩).tokens ++ earlier,
        (content.foldl step ⟨tokens, place⟩).place⟩ := by
  induction content generalizing tokens place with
  | nil => rfl
  | cons b content ih => rw [List.foldl_cons, step_append, ih]; rfl

/-- What is read from a place on is read after any tokens. -/
theorem foldl_step_after {content : Bytes} {tokens : List Token} {place place' : Place}
    (read : content.foldl step ⟨[], place⟩ = ⟨tokens, place'⟩) (earlier : List Token) :
    content.foldl step ⟨earlier, place⟩ = ⟨tokens ++ earlier, place'⟩ := by
  have appended := foldl_step_append content [] earlier place
  rw [List.nil_append, read] at appended
  exact appended

/-! ## Quotation marks and brackets -/

/-- The quotation mark that is open after some bytes in a tag; `none` if the tag ends before. -/
def quoteAfterAll? : Option UInt8 → Bytes → Option (Option UInt8)
  | quote, [] => some quote
  | quote, b :: content =>
    if b = byte '>' ∧ quote = none then none else quoteAfterAll? (quoteAfter quote b) content

/-- How many brackets are open after some bytes in a document type; `none` if it ends before. -/
def depthAfter? : Nat → Bytes → Option Nat
  | depth, [] => some depth
  | depth, b :: content =>
    if b = byte '<' then depthAfter? (depth + 1) content
    else if b = byte '>' then
      match depth with
      | 0 => none
      | depth + 1 => depthAfter? depth content
    else depthAfter? depth content

theorem quoteAfterAll?_append (quote : Option UInt8) (first second : Bytes) :
    quoteAfterAll? quote (first ++ second) =
      (quoteAfterAll? quote first).bind fun quote => quoteAfterAll? quote second := by
  induction first generalizing quote with
  | nil => rfl
  | cons b first ih =>
    simp only [List.cons_append, quoteAfterAll?]
    split
    · rfl
    · exact ih _

theorem depthAfter?_append (depth : Nat) (first second : Bytes) :
    depthAfter? depth (first ++ second) =
      (depthAfter? depth first).bind fun depth => depthAfter? depth second := by
  induction first generalizing depth with
  | nil => rfl
  | cons b first ih =>
    simp only [List.cons_append, depthAfter?]
    split
    · exact ih _
    · split
      · cases depth with
        | zero => rfl
        | succ depth => exact ih _
      · exact ih _

theorem quoteAfterAll?_concat {content : Bytes} {quote : Option UInt8} {b : UInt8}
    (before : quoteAfterAll? none content = some quote) (stays : ¬ (b = byte '>' ∧ quote = none)) :
    quoteAfterAll? none (content ++ [b]) = some (quoteAfter quote b) := by
  rw [quoteAfterAll?_append, before]
  simp only [Option.bind_some, quoteAfterAll?, if_neg stays]

/-- Without brackets the depth stays the same. -/
theorem depthAfter?_of_plain {content : Bytes} (plain : ∀ b ∈ content, b ≠ byte '<' ∧ b ≠ byte '>')
    (depth : Nat) : depthAfter? depth content = some depth := by
  induction content with
  | nil => rfl
  | cons b content ih =>
    rw [List.forall_mem_cons] at plain
    simp only [depthAfter?, plain.1.1, plain.1.2, ↓reduceIte, ih plain.2]

/-- No quotation mark is open, or one of the two there are. -/
def IsMark (quote : Option UInt8) : Prop :=
  ∀ mark, quote = some mark → mark = byte '"' ∨ mark = byte '\''

theorem IsMark.after {quote : Option UInt8} (known : IsMark quote) (b : UInt8) :
    IsMark (quoteAfter quote b) := by
  unfold quoteAfter IsMark at *
  intro mark opened
  cases quote with
  | none =>
    by_cases opens : b = byte '"' ∨ b = byte '\''
    · simp only [opens, ↓reduceIte, Option.some.injEq] at opened
      exact opened ▸ opens
    · simp [opens] at opened
  | some mark' =>
    by_cases closes : b = mark'
    · simp [closes] at opened
    · simp only [closes, ↓reduceIte] at opened
      exact known mark opened

theorem isMark_of_quoteAfterAll? {quote quote' : Option UInt8} {content : Bytes}
    (known : IsMark quote) (ends : quoteAfterAll? quote content = some quote') :
    IsMark quote' := by
  induction content generalizing quote with
  | nil => exact Option.some.inj ends ▸ known
  | cons b content ih =>
    rw [quoteAfterAll?] at ends
    split at ends
    · simp at ends
    · exact ih (known.after b) ends

/-- Bytes that neither quote nor end a tag leave it as it is. -/
theorem quoteAfterAll?_of_plain {quote : Option UInt8} (known : IsMark quote) {content : Bytes}
    (plain : ∀ b ∈ content, b ≠ byte '"' ∧ b ≠ byte '\'' ∧ b ≠ byte '>') :
    quoteAfterAll? quote content = some quote := by
  induction content with
  | nil => rfl
  | cons b content ih =>
    rw [List.forall_mem_cons] at plain
    obtain ⟨⟨double, single, stop⟩, plain⟩ := plain
    have same : quoteAfter quote b = quote := by
      cases quote with
      | none => simp [quoteAfter, double, single]
      | some mark =>
        have other : b ≠ mark := by
          rintro rfl
          exact (known b rfl).elim double single
        simp [quoteAfter, other]
    rw [quoteAfterAll?, if_neg (fun ends => stop ends.1), same, ih plain]

theorem foldl_step_text {content : Bytes} (free : byte '<' ∉ content) (tokens : List Token)
    (raw : Bytes) :
    content.foldl step ⟨tokens, .text raw⟩ = ⟨tokens, .text (content.reverse ++ raw)⟩ := by
  induction content generalizing raw with
  | nil => rfl
  | cons b content ih =>
    rw [List.mem_cons, not_or] at free
    have stepped : step ⟨tokens, .text raw⟩ b = ⟨tokens, .text (b :: raw)⟩ := by
      simp only [step, if_neg (Ne.symm free.1), go]
    rw [List.foldl_cons, stepped, ih free.2, List.reverse_cons, List.append_assoc]
    rfl

theorem foldl_step_tag {quote quote' : Option UInt8} {content : Bytes}
    (ends : quoteAfterAll? quote content = some quote') (tokens : List Token) (raw : Bytes) :
    content.foldl step ⟨tokens, .tag quote raw⟩ = ⟨tokens, .tag quote' (content.reverse ++ raw)⟩ := by
  induction content generalizing quote raw with
  | nil => obtain rfl := Option.some.inj ends; rfl
  | cons b content ih =>
    rw [quoteAfterAll?] at ends
    split at ends
    · simp at ends
    · next other =>
      have stepped : step ⟨tokens, .tag quote raw⟩ b =
          ⟨tokens, .tag (quoteAfter quote b) (b :: raw)⟩ := by
        simp only [step, stepTag, if_neg other, go]
      rw [List.foldl_cons, stepped, List.reverse_cons, List.append_assoc]
      exact ih ends (b :: raw)

theorem foldl_step_closing {quote quote' : Option UInt8} {content : Bytes}
    (ends : quoteAfterAll? quote content = some quote') (tokens : List Token) (raw : Bytes) :
    content.foldl step ⟨tokens, .closing quote raw⟩ =
      ⟨tokens, .closing quote' (content.reverse ++ raw)⟩ := by
  induction content generalizing quote raw with
  | nil => obtain rfl := Option.some.inj ends; rfl
  | cons b content ih =>
    rw [quoteAfterAll?] at ends
    split at ends
    · simp at ends
    · next other =>
      have stepped : step ⟨tokens, .closing quote raw⟩ b =
          ⟨tokens, .closing (quoteAfter quote b) (b :: raw)⟩ := by
        simp only [step, if_neg other, go]
      rw [List.foldl_cons, stepped, List.reverse_cons, List.append_assoc]
      exact ih ends (b :: raw)

theorem foldl_step_documentType {depth depth' : Nat} {content : Bytes}
    (ends : depthAfter? depth content = some depth') (tokens : List Token) (raw : Bytes) :
    content.foldl step ⟨tokens, .documentType depth raw⟩ =
      ⟨tokens, .documentType depth' (content.reverse ++ raw)⟩ := by
  induction content generalizing depth raw with
  | nil => obtain rfl := Option.some.inj ends; rfl
  | cons b content ih =>
    rw [List.foldl_cons, List.reverse_cons, List.append_assoc]
    simp only [step]
    unfold depthAfter? at ends
    split at ends
    · next opens =>
      rw [if_pos opens]
      exact ih ends (b :: raw)
    · next other =>
      rw [if_neg other]
      split at ends
      · next closes =>
        rw [if_pos closes]
        cases depth with
        | zero => simp at ends
        | succ depth => exact ih ends (b :: raw)
      · next other =>
        rw [if_neg other]
        exact ih ends (b :: raw)

end Scanner

/-! ## Sound tokens -/

/-- A tag does not begin as other markup does. -/
def BeginsTag (content : Bytes) : Prop :=
  ∀ b ∈ content.head?, b ≠ byte '!' ∧ b ≠ byte '?' ∧ b ≠ byte '/'

/-- A document type begins with the first letter of its keyword. -/
def BeginsDocumentType (content : Bytes) : Prop :=
  ∃ b ∈ content.head?, b = byte 'D' ∨ b = byte 'd'

open Scanner

/-- A token is one that its source is scanned to. -/
def Token.IsSound : Token → Prop
  | .text content => content ≠ [] ∧ byte '<' ∉ content
  | .opening content =>
    BeginsTag content ∧ quoteAfterAll? none content = some none ∧
      tagToken content.reverse = .opening content
  | .emptyTag content =>
    BeginsTag (content ++ [byte '/']) ∧ quoteAfterAll? none content = some none
  | .closing name space =>
    quoteAfterAll? none (name ++ space) = some none ∧
      closingToken (name ++ space).reverse = .closing name space
  | .documentType keyword space content =>
    BeginsDocumentType (keyword ++ space ++ content) ∧
      depthAfter? 0 (keyword ++ space ++ content) = some 0 ∧
      documentType? (keyword ++ space ++ content) = some (.documentType keyword space content)
  | token => token.source.foldl step {} = ⟨[token], .text []⟩

/-- What is known of the part at a place. -/
def Place.Fits : Place → Prop
  | .text raw => byte '<' ∉ raw
  | .tag quote raw =>
    raw ≠ [] ∧ BeginsTag raw.reverse ∧ quoteAfterAll? none raw.reverse = some quote
  | .closing quote raw => quoteAfterAll? none raw.reverse = some quote
  | .documentType depth raw =>
    BeginsDocumentType raw.reverse ∧ depthAfter? 0 raw.reverse = some depth
  | .comment raw => raw.reverse.foldl step ⟨[], .bang⟩ = ⟨[], .comment raw⟩
  | .literal raw => raw.reverse.foldl step ⟨[], .bang⟩ = ⟨[], .literal raw⟩
  | .instruction raw => raw.reverse.foldl step ⟨[], .instruction []⟩ = ⟨[], .instruction raw⟩
  | .opened | .bang => True
  | .failed => False

/-- What is known of a scanner after some bytes. -/
structure Scanner.Fits (s : Scanner) (content : Bytes) : Prop where
  sound : ∀ t ∈ s.tokens, t.IsSound
  apart : s.tokens.IsChain Token.Apart
  fresh : s.place.isText = true → ∀ t ∈ s.tokens.head?, t.isText = false
  place : s.place.Fits
  sources : s.tokens.reverse.flatMap Token.source ++ s.place.pending = content

/-! ## Ends of parts -/

namespace Scanner

theorem source_tagToken (raw : Bytes) :
    (tagToken raw).source = byte '<' :: raw.reverse ++ [byte '>'] := by
  unfold tagToken
  cases raw with
  | nil => rfl
  | cons b rest =>
    by_cases slash : b = byte '/'
    · subst slash
      simp [Token.source]
      rfl
    · simp [slash, Token.source]

theorem isSound_tagToken {raw : Bytes} (begins : BeginsTag raw.reverse)
    (closed : quoteAfterAll? none raw.reverse = some none) : (tagToken raw).IsSound := by
  unfold tagToken
  cases raw with
  | nil => exact ⟨begins, rfl, rfl⟩
  | cons b rest =>
    by_cases slash : b = byte '/'
    · subst slash
      rw [List.reverse_cons] at begins closed
      rw [quoteAfterAll?_append, Option.bind_eq_some_iff] at closed
      obtain ⟨quote, before, after⟩ := closed
      -- The slash neither opens a quotation nor closes one.
      have known : IsMark quote := isMark_of_quoteAfterAll? (by simp [IsMark]) before
      rw [quoteAfterAll?_of_plain known (forall_mem_of_all (by decide))] at after
      obtain rfl := Option.some.inj after
      simp only [↓reduceIte]
      exact ⟨begins, before⟩
    · simpa [slash, tagToken, Token.IsSound] using And.intro begins closed

theorem eq_closingToken (raw : Bytes) :
    ∃ name space, closingToken raw = .closing name space ∧ name ++ space = raw.reverse := by
  unfold closingToken
  cases left : raw.dropWhile isSpace with
  | nil => exact ⟨raw.reverse, [], rfl, List.append_nil _⟩
  | cons b rest =>
    refine ⟨_, _, rfl, ?_⟩
    rw [← left, ← List.reverse_append, List.takeWhile_append_dropWhile]

theorem eq_of_documentType? {content : Bytes} {t : Token} (made : documentType? content = some t) :
    ∃ keyword space rest, t = .documentType keyword space rest ∧
      keyword ++ space ++ rest = content := by
  simp only [documentType?] at made
  split at made
  · refine ⟨_, _, _, (Option.some.inj made).symm, ?_⟩
    rw [List.append_assoc, List.takeWhile_append_dropWhile, List.take_append_drop]
  · simp at made

theorem begins_of_between? {start stop content : Bytes} {token : Bytes → Token} {t : Token}
    (made : between? start stop content token = some t) : start.isPrefixOf content = true := by
  unfold between? at made
  split at made
  · assumption
  · simp at made

theorem eq_of_between? {start stop content : Bytes} {token : Bytes → Token} {t : Token}
    (made : between? start stop content token = some t) (ends : stop <:+ content)
    (fits : start.length + stop.length ≤ content.length) :
    ∃ inner, t = token inner ∧ content = start ++ inner ++ stop := by
  unfold between? at made
  split at made
  · next begins =>
    refine ⟨_, (Option.some.inj made).symm, ?_⟩
    obtain ⟨rest, rfl⟩ := List.isPrefixOf_iff_prefix.1 begins
    obtain ⟨inner, same⟩ : stop <:+ rest := by
      refine List.suffix_of_suffix_length_le ends (List.suffix_append start rest) ?_
      simp at fits
      omega
    have size : (start ++ rest).length - start.length - stop.length = inner.length := by
      simp [← same]
    rw [size, List.drop_left, ← same, List.take_left, List.append_assoc]
  · simp at made

/-- What opens and closes a literal cannot overlap. -/
theorem length_literal {raw : Bytes} (begins : (ascii "[CDATA[").isPrefixOf raw.reverse)
    (ends : (ascii "]]").isPrefixOf raw) : 9 ≤ raw.length := by
  obtain ⟨rest, shape⟩ := List.isPrefixOf_iff_prefix.1 begins
  obtain ⟨before, rfl⟩ := List.isPrefixOf_iff_prefix.1 ends
  have reversed : ascii "]]" ++ before = rest.reverse ++ (ascii "[CDATA[").reverse := by
    rw [← List.reverse_append, shape, List.reverse_reverse]
  have size := congrArg List.length reversed
  rcases rest with _ | ⟨b, _ | ⟨b', rest⟩⟩
  · have first := congrArg List.head? reversed
    exact absurd first (by simp [ascii, byte])
  · have second := congrArg (fun list => list[1]?) reversed
    exact absurd second (by simp [ascii, byte])
  · simp only [List.length_append, List.length_reverse, List.length_cons] at size ⊢
    have word : (ascii "[CDATA[").length = 7 := by decide
    omega

/-- Once a scan has failed it stays so. -/
theorem place_foldl_step_of_failed {s : Scanner} (failed : s.place = .failed) (content : Bytes) :
    (content.foldl step s).place = .failed := by
  induction content generalizing s with
  | nil => exact failed
  | cons b content ih =>
    refine ih ?_
    simp only [step, failed]

theorem foldl_step_concat {start place : Place} {raw : Bytes}
    (read : raw.reverse.foldl step ⟨[], start⟩ = ⟨[], place⟩) (b : UInt8) :
    (raw.reverse ++ [b]).foldl step ⟨[], start⟩ = step ⟨[], place⟩ b := by
  rw [List.foldl_append, read]
  rfl

theorem foldl_declaration (content : Bytes) :
    (ascii "<!" ++ content).foldl step {} = content.foldl step ⟨[], .bang⟩ := rfl

theorem foldl_instruction (content : Bytes) :
    (ascii "<?" ++ content).foldl step {} = content.foldl step ⟨[], .instruction []⟩ := rfl

/-! ## The invariant -/

theorem fits_start : ({} : Scanner).Fits [] where
  sound := by simp
  apart := by simp
  fresh := by simp
  place := List.not_mem_nil
  sources := rfl

namespace Fits

variable {s : Scanner} {content : Bytes} {b : UInt8}

/-- Reading on within a part. -/
theorem go (fits : s.Fits content) {place : Place} (next : place.Fits)
    (pending : place.pending = s.place.pending ++ [b])
    (stays : place.isText = true → s.place.isText = true) : (s.go place).Fits (content ++ [b]) where
  sound := fits.sound
  apart := fits.apart
  fresh text := fits.fresh (stays text)
  place := next
  sources := by
    show s.tokens.reverse.flatMap Token.source ++ place.pending = content ++ [b]
    rw [pending, ← List.append_assoc, fits.sources]

/-- Reading the end of a token. -/
theorem emit (fits : s.Fits content) {t : Token} (sound : t.IsSound) (markup : t.isText = false)
    (source : t.source = s.place.pending ++ [b]) : (s.emit t).Fits (content ++ [b]) where
  sound := List.forall_mem_cons.2 ⟨sound, fits.sound⟩
  apart := by
    refine List.isChain_cons.2 ⟨fun t' _ both => ?_, fits.apart⟩
    rw [markup] at both
    exact Bool.false_ne_true both.1
  fresh _ t' head := by
    obtain rfl := Option.some.inj head
    exact markup
  place := List.not_mem_nil
  sources := by
    show (t :: s.tokens).reverse.flatMap Token.source ++ [] = content ++ [b]
    simp [source, ← fits.sources]

theorem emit? (fits : s.Fits content) {token? : Option Token}
    (made : ∀ t, token? = some t →
      t.IsSound ∧ t.isText = false ∧ t.source = s.place.pending ++ [b]) :
    (s.emit? token?).place = .failed ∨ (s.emit? token?).Fits (content ++ [b]) := by
  cases token? with
  | none => exact .inl rfl
  | some t =>
    obtain ⟨sound, markup, source⟩ := made t rfl
    exact .inr (fits.emit sound markup source)

/-- A tag begins where text ends. -/
theorem endText {raw : Bytes} (fits : s.Fits content) (place : s.place = .text raw)
    (opens : b = byte '<') :
    (⟨s.endText raw, .opened⟩ : Scanner).Fits (content ++ [b]) := by
  have here := fits.place
  have sources := fits.sources
  have fresh := fits.fresh
  rw [place] at here sources fresh
  subst opens
  unfold Scanner.endText
  cases raw with
  | nil =>
    refine ⟨fits.sound, fits.apart, by simp [Place.isText], trivial, ?_⟩
    simpa [Place.pending] using sources
  | cons c raw =>
    have text : (Token.text (c :: raw).reverse).IsSound :=
      ⟨by simp, by simpa [Place.Fits, and_comm] using here⟩
    refine ⟨List.forall_mem_cons.2 ⟨text, fits.sound⟩, List.isChain_cons.2 ⟨?_, fits.apart⟩,
      by simp [Place.isText], trivial, ?_⟩
    · intro t head both
      rw [fresh rfl t head] at both
      exact Bool.false_ne_true both.2
    · simp [Place.pending, Token.source, ← sources]

/-- Reading on within a tag, or to its end. -/
theorem stepTag (fits : s.Fits content) {quote : Option UInt8} {raw : Bytes}
    (pending : s.place.pending = byte '<' :: raw.reverse)
    (begins : BeginsTag raw.reverse)
    (first : raw = [] → b ≠ byte '!' ∧ b ≠ byte '?' ∧ b ≠ byte '/')
    (read : quoteAfterAll? none raw.reverse = some quote) :
    (s.stepTag quote raw b).Fits (content ++ [b]) := by
  unfold Scanner.stepTag
  split
  · next ends =>
    obtain ⟨rfl, rfl⟩ := ends
    have markup : (tagToken raw).isText = false := by
      unfold tagToken
      repeat' split
      all_goals rfl
    refine fits.emit (isSound_tagToken begins read) markup ?_
    rw [source_tagToken, pending]
  · next stays =>
    refine fits.go ⟨by simp, ?_, ?_⟩ (by rw [pending]; simp [Place.pending]) (by simp [Place.isText])
    · cases raw with
      | nil => simpa [BeginsTag] using first rfl
      | cons c raw => simpa [BeginsTag, List.head?_append] using begins
    · rw [List.reverse_cons]
      exact quoteAfterAll?_concat read stays

theorem stepClosing (fits : s.Fits content) {quote : Option UInt8} {raw : Bytes}
    (place : s.place = .closing quote raw) : (s.step b).Fits (content ++ [b]) := by
  have read : quoteAfterAll? none raw.reverse = some quote := by
    have here := fits.place
    rwa [place] at here
  simp only [Scanner.step, place]
  split
  · next ends =>
    obtain ⟨rfl, rfl⟩ := ends
    obtain ⟨name, space, made, shape⟩ := eq_closingToken raw
    rw [made]
    refine fits.emit ⟨by rw [shape, read], by rw [shape, List.reverse_reverse, made]⟩ rfl ?_
    simp [Token.source, Place.pending, place, ← shape]
  · next stays =>
    refine fits.go ?_ (by simp [Place.pending, place]) (by simp [Place.isText])
    show quoteAfterAll? none (b :: raw).reverse = _
    rw [List.reverse_cons]
    exact quoteAfterAll?_concat read stays

theorem stepDocumentType (fits : s.Fits content) {depth : Nat} {raw : Bytes}
    (place : s.place = .documentType depth raw) :
    (s.step b).place = .failed ∨ (s.step b).Fits (content ++ [b]) := by
  obtain ⟨begins, read⟩ : BeginsDocumentType raw.reverse ∧ depthAfter? 0 raw.reverse = some depth := by
    have here := fits.place
    rwa [place] at here
  have begins' : BeginsDocumentType (b :: raw).reverse := by
    obtain ⟨first, head, word⟩ := begins
    refine ⟨first, ?_, word⟩
    rw [List.reverse_cons, List.head?_append, Option.mem_def.1 head]
    rfl
  have next (depth' : Nat) (more : depthAfter? depth [b] = some depth') :
      (s.go (.documentType depth' (b :: raw))).Fits (content ++ [b]) := by
    refine fits.go ⟨begins', ?_⟩ (by simp [Place.pending, place]) (by simp [Place.isText])
    rw [List.reverse_cons, depthAfter?_append, read, Option.bind_some, more]
  simp only [Scanner.step, place]
  split
  · next opens => exact .inr (next _ (by simp [depthAfter?, opens]))
  · next other =>
    split
    · next closes =>
      cases depth with
      | zero =>
        refine fits.emit? fun t made => ?_
        obtain ⟨keyword, space, rest, rfl, shape⟩ := eq_of_documentType? made
        refine ⟨⟨by rwa [shape], by rwa [shape], by rwa [shape]⟩, rfl, ?_⟩
        simp [Token.source, Place.pending, place, ← shape, closes]
      | succ depth => exact .inr (next _ (by subst closes; simp [depthAfter?, other]))
    · next other' => exact .inr (next _ (by simp [depthAfter?, other, other']))

theorem stepComment (fits : s.Fits content) {raw : Bytes} (place : s.place = .comment raw) :
    (s.step b).place = .failed ∨ (s.step b).Fits (content ++ [b]) := by
  have read : raw.reverse.foldl Scanner.step ⟨[], .bang⟩ = ⟨[], .comment raw⟩ := by
    have here := fits.place
    rwa [place] at here
  simp only [Scanner.step, place]
  split
  · next ends =>
    refine fits.emit? fun t made => ?_
    have stop : ascii "--" <:+ raw.reverse :=
      List.reverse_suffix.2 (List.isPrefixOf_iff_prefix.1 ends.2.2)
    obtain ⟨inner, rfl, shape⟩ := eq_of_between? made stop (by simpa [ascii] using ends.2.1)
    have source : (Token.comment inner).source = ascii "<!" ++ (raw.reverse ++ [b]) := by
      rw [shape, ends.1]
      simp [Token.source, ascii]
    refine ⟨?_, rfl, by rw [source, place, ← List.append_assoc]; rfl⟩
    show (Token.comment inner).source.foldl Scanner.step {} = _
    rw [source, foldl_declaration, foldl_step_concat read]
    simp only [Scanner.step, if_pos ends, made]
    rfl
  · next stays =>
    refine .inr (fits.go ?_ (by simp [Place.pending, place]) (by simp [Place.isText]))
    rw [Place.Fits, List.reverse_cons, foldl_step_concat read]
    simp only [Scanner.step, if_neg stays, Scanner.go]

theorem stepLiteral (fits : s.Fits content) {raw : Bytes} (place : s.place = .literal raw) :
    (s.step b).place = .failed ∨ (s.step b).Fits (content ++ [b]) := by
  have read : raw.reverse.foldl Scanner.step ⟨[], .bang⟩ = ⟨[], .literal raw⟩ := by
    have here := fits.place
    rwa [place] at here
  simp only [Scanner.step, place]
  split
  · next ends =>
    refine fits.emit? fun t made => ?_
    have stop : ascii "]]" <:+ raw.reverse :=
      List.reverse_suffix.2 (List.isPrefixOf_iff_prefix.1 ends.2)
    have long := length_literal (begins_of_between? made) ends.2
    obtain ⟨inner, rfl, shape⟩ := eq_of_between? made stop (by simpa [ascii] using long)
    have source : (Token.literal inner).source = ascii "<!" ++ (raw.reverse ++ [b]) := by
      rw [shape, ends.1]
      simp [Token.source, ascii]
    refine ⟨?_, rfl, by rw [source, place, ← List.append_assoc]; rfl⟩
    show (Token.literal inner).source.foldl Scanner.step {} = _
    rw [source, foldl_declaration, foldl_step_concat read]
    simp only [Scanner.step, if_pos ends, made]
    rfl
  · next stays =>
    refine .inr (fits.go ?_ (by simp [Place.pending, place]) (by simp [Place.isText]))
    rw [Place.Fits, List.reverse_cons, foldl_step_concat read]
    simp only [Scanner.step, if_neg stays, Scanner.go]

theorem stepInstruction (fits : s.Fits content) {raw : Bytes} (place : s.place = .instruction raw) :
    (s.step b).place = .failed ∨ (s.step b).Fits (content ++ [b]) := by
  have read : raw.reverse.foldl Scanner.step ⟨[], .instruction []⟩ = ⟨[], .instruction raw⟩ := by
    have here := fits.place
    rwa [place] at here
  have next (stays : Scanner.step ⟨[], .instruction raw⟩ b = ⟨[], .instruction (b :: raw)⟩) :
      (s.go (.instruction (b :: raw))).Fits (content ++ [b]) := by
    refine fits.go ?_ (by simp [Place.pending, place]) (by simp [Place.isText])
    rw [Place.Fits, List.reverse_cons, foldl_step_concat read, stays]
  simp only [Scanner.step, place]
  split
  · next ends =>
    subst ends
    cases raw with
    | nil => exact .inl rfl
    | cons c rest =>
      dsimp only
      split
      · next question =>
        subst question
        have source : (Token.instruction rest.reverse).source =
            ascii "<?" ++ ((byte '?' :: rest).reverse ++ [byte '>']) := by
          simp [Token.source, ascii]
        refine .inr (fits.emit ?_ rfl (by rw [source, place, ← List.append_assoc]; rfl))
        show (Token.instruction rest.reverse).source.foldl Scanner.step {} = _
        rw [source, foldl_instruction, foldl_step_concat read]
        rfl
      · next other => exact .inr (next (by simp [Scanner.step, other, Scanner.go]))
  · next other => exact .inr (next (by simp [Scanner.step, other, Scanner.go]))

theorem stepOpened (fits : s.Fits content) (place : s.place = .opened) :
    (s.step b).Fits (content ++ [b]) := by
  have next {place' : Place} (next : place'.Fits) (pending : place'.pending = [byte '<', b])
      (markup : place'.isText = false) : (s.go place').Fits (content ++ [b]) :=
    fits.go next (by rw [pending, place]; rfl) (by simp [markup])
  simp only [Scanner.step, place]
  split
  · next bang => exact next trivial (by subst bang; rfl) rfl
  · next bang =>
    split
    · next question => exact next rfl (by subst question; rfl) rfl
    · next question =>
      split
      · next slash => exact next rfl (by subst slash; rfl) rfl
      · next slash =>
        exact fits.stepTag (by simp [Place.pending, place]) (by simp [BeginsTag])
          (fun _ => ⟨bang, question, slash⟩) rfl

theorem stepBang (fits : s.Fits content) (place : s.place = .bang) :
    (s.step b).place = .failed ∨ (s.step b).Fits (content ++ [b]) := by
  have next {place' : Place} (next : place'.Fits) (pending : place'.pending = ascii "<!" ++ [b])
      (markup : place'.isText = false) : (s.go place').Fits (content ++ [b]) :=
    fits.go next (by rw [pending, place]; rfl) (by simp [markup])
  simp only [Scanner.step, place]
  split
  · next dash => exact .inr (next (by subst dash; rfl) rfl rfl)
  · split
    · next bracket => exact .inr (next (by subst bracket; rfl) rfl rfl)
    · split
      · next word =>
        refine .inr (next ⟨⟨b, by simp, word⟩, ?_⟩ rfl rfl)
        obtain rfl | rfl := word <;> rfl
      · exact .inl rfl

/-- What one byte adds to what is known. -/
theorem step (fits : s.Fits content) (b : UInt8) :
    (s.step b).place = .failed ∨ (s.step b).Fits (content ++ [b]) := by
  have here := fits.place
  cases place : s.place with
  | text raw =>
    rw [place] at here
    simp only [Scanner.step, place]
    split
    · next opens => exact .inr (fits.endText place opens)
    · next other =>
      refine .inr (fits.go ?_ (by simp [Place.pending, place]) (by simp [Place.isText, place]))
      rw [Place.Fits, List.mem_cons, not_or]
      exact ⟨Ne.symm other, here⟩
  | tag quote raw =>
    rw [place] at here
    obtain ⟨some, begins, read⟩ := here
    simp only [Scanner.step, place]
    exact .inr (fits.stepTag (by simp [Place.pending, place]) begins
      (fun none => absurd none some) read)
  | failed =>
    rw [place] at here
    exact here.elim
  | opened => exact .inr (fits.stepOpened place)
  | closing quote raw => exact .inr (fits.stepClosing place)
  | bang => exact fits.stepBang place
  | comment raw => exact fits.stepComment place
  | literal raw => exact fits.stepLiteral place
  | documentType depth raw => exact fits.stepDocumentType place
  | instruction raw => exact fits.stepInstruction place

/-- What is known of a scan unless it fails. -/
theorem foldl (fits : s.Fits content) (rest : Bytes) :
    (rest.foldl Scanner.step s).place = .failed ∨
      (rest.foldl Scanner.step s).Fits (content ++ rest) := by
  induction rest generalizing s content with
  | nil => exact .inr (by simpa using fits)
  | cons b rest ih =>
    obtain failed | next := fits.step b
    · left
      rw [List.foldl_cons]
      exact place_foldl_step_of_failed failed rest
    · simpa using ih next

end Fits

end Scanner

theorem Token.Apart.symm {t t' : Token} (apart : t.Apart t') : t'.Apart t :=
  fun both => apart both.symm

/-- The tokens of a whole scan are sound, texts stand apart, and their sources are the document
    but for the byte order mark. -/
theorem fits_scan {content : Bytes} (whole : (Scan.of content).isWhole = true) :
    (∀ t ∈ (Scan.of content).tokens, t.IsSound) ∧
      (Scan.of content).tokens.IsChain Token.Apart ∧
      (Scan.of content).tokens.flatMap Token.source = dropMark content := by
  unfold Scan.of Scanner.finish at *
  cases place : ((dropMark content).foldl step {}).place with
  | text raw =>
    obtain failed | fits := Scanner.fits_start.foldl (dropMark content)
    · simp [failed] at place
    -- A bracket after the document would end its last text.
    obtain ⟨sound, apart, -, -, sources⟩ := fits.endText place rfl
    refine ⟨fun t member => sound t (List.mem_reverse.1 member), ?_, ?_⟩
    · exact List.isChain_reverse.2 (apart.imp fun _ _ => Token.Apart.symm)
    · simpa [Place.pending] using sources
  | _ => simp [place] at whole

/-! ## Scanning sources -/

namespace Token

theorem foldl_step_tag {content : Bytes} (begins : BeginsTag content)
    (closed : quoteAfterAll? none content = some none) (tokens : List Token) :
    (byte '<' :: content ++ [byte '>']).foldl step ⟨tokens, .text []⟩ =
      ⟨tagToken content.reverse :: tokens, .text []⟩ := by
  cases content with
  | nil => rfl
  | cons b content =>
    obtain ⟨bang, question, slash⟩ := begins b rfl
    rw [quoteAfterAll?] at closed
    split at closed
    · simp at closed
    · next stays =>
      have opened : step ⟨tokens, .opened⟩ b = ⟨tokens, .tag (quoteAfter none b) [b]⟩ := by
        have stop : b ≠ byte '>' := fun same => stays ⟨same, rfl⟩
        simp only [step, stepTag, bang, question, slash, stop, false_and, ↓reduceIte, go]
      have first : step ⟨tokens, .text []⟩ (byte '<') = ⟨tokens, .opened⟩ := rfl
      rw [List.cons_append, List.cons_append, List.foldl_cons, first, List.foldl_cons, opened,
        List.foldl_append, Scanner.foldl_step_tag closed, ← List.reverse_cons]
      rfl

/-- The source of a sound token is scanned to it. -/
theorem IsSound.foldl_source {t : Token} (sound : t.IsSound) (markup : t.isText = false) :
    t.source.foldl step {} = ⟨[t], .text []⟩ := by
  cases t with
  | text content => simp [isText] at markup
  | opening content =>
    obtain ⟨begins, closed, made⟩ := sound
    have read := foldl_step_tag begins closed []
    rwa [made] at read
  | emptyTag content =>
    obtain ⟨begins, closed⟩ := sound
    have closed' : quoteAfterAll? none (content ++ [byte '/']) = some none := by
      rw [quoteAfterAll?_append, closed]
      rfl
    have source : (emptyTag content).source = byte '<' :: (content ++ [byte '/']) ++ [byte '>'] := by
      simp [Token.source, ascii]
    rw [source, foldl_step_tag begins closed', List.reverse_concat]
    simp [tagToken]
  | closing name space =>
    obtain ⟨closed, made⟩ := sound
    have source : (closing name space).source =
        byte '<' :: byte '/' :: (name ++ space ++ [byte '>']) := by
      simp [Token.source, ascii]
    have opened : step (step {} (byte '<')) (byte '/') = ⟨[], .closing none []⟩ := rfl
    rw [source, List.foldl_cons, List.foldl_cons, opened, List.foldl_append,
      foldl_step_closing closed, List.append_nil, ← made]
    rfl
  | documentType keyword space content =>
    obtain ⟨begins, closed, made⟩ := sound
    have source : (documentType keyword space content).source =
        ascii "<!" ++ (keyword ++ space ++ content ++ [byte '>']) := by
      simp [Token.source]
    rw [source, foldl_declaration]
    generalize keyword ++ space ++ content = whole at begins closed made
    obtain ⟨b, head, word⟩ := begins
    obtain ⟨rest, rfl⟩ := List.head?_eq_some_iff.1 head
    have opened : step ⟨[], .bang⟩ b = ⟨[], .documentType 0 [b]⟩ := by
      obtain rfl | rfl := word <;> rfl
    have closed' : depthAfter? 0 rest = some 0 := by
      obtain rfl | rfl := word <;> exact closed
    rw [List.cons_append, List.foldl_cons, opened, List.foldl_append,
      foldl_step_documentType closed']
    have whole : (rest.reverse ++ [b]).reverse = b :: rest := by simp
    simp only [List.foldl_cons, List.foldl_nil, step, whole, made]
    rfl
  | comment content | literal content | instruction content => exact sound

/-! ## Copies -/

theorem isSpace_plain {b : UInt8} (space : isSpace b = true) :
    b ≠ byte '"' ∧ b ≠ byte '\'' ∧ b ≠ byte '>' ∧ b ≠ byte '<' := by
  simp only [isSpace, Bool.or_eq_true, beq_iff_eq] at space
  obtain ((rfl | rfl) | rfl) | rfl := space <;> decide

theorem isSound_copy_closing {name space : Bytes} (sound : (closing name space).IsSound) :
    (closing name []).IsSound := by
  obtain ⟨closed, made⟩ := sound
  generalize reversed : (name ++ space).reverse = raw at made
  unfold closingToken at made
  cases left : raw.dropWhile isSpace with
  | nil =>
    simp only [left, closing.injEq] at made
    obtain ⟨rfl, rfl⟩ := made
    refine ⟨closed, ?_⟩
    simp [closingToken, left]
  | cons b rest =>
    simp only [left, closing.injEq] at made
    obtain ⟨rfl, rfl⟩ := made
    have solid : isSpace b = false := by
      have first := List.head?_dropWhile_not isSpace raw
      simpa [left] using first
    constructor
    · rw [quoteAfterAll?_append, Option.bind_eq_some_iff] at closed
      obtain ⟨quote, before, after⟩ := closed
      have known : IsMark quote := isMark_of_quoteAfterAll? (by simp [IsMark]) before
      rw [quoteAfterAll?_of_plain known] at after
      · rw [List.append_nil, before, Option.some.inj after]
      · intro c member
        have space := List.all_eq_true.1 List.all_takeWhile c (List.mem_reverse.1 member)
        exact ⟨(isSpace_plain space).1, (isSpace_plain space).2.1, (isSpace_plain space).2.2.1⟩
    · simp [closingToken, solid]

/-- There are only spaces after the name in an end tag. -/
theorem IsSound.closing {name space : Bytes} (sound : (Token.closing name space).IsSound) :
    ∀ b ∈ space, isSpace b = true := by
  obtain ⟨-, made⟩ := sound
  generalize (name ++ space).reverse = raw at made
  unfold closingToken at made
  split at made
  · obtain ⟨-, rfl⟩ := Token.closing.inj made
    simp
  · obtain ⟨-, rfl⟩ := Token.closing.inj made
    exact fun b member => List.all_eq_true.1 List.all_takeWhile b (List.mem_reverse.1 member)

/-- A document type has the keyword in some case, spaces after it, and content that does not begin
    with one. -/
theorem IsSound.documentType {keyword space content : Bytes}
    (sound : (Token.documentType keyword space content).IsSound) :
    keyword.map capital = ascii "DOCTYPE" ∧ (∀ b ∈ space, isSpace b = true) ∧
      ∃ b rest, content = b :: rest ∧ isSpace b = false := by
  obtain ⟨-, -, made⟩ := sound
  simp only [documentType?] at made
  split at made
  · next fits =>
    obtain ⟨word, solid⟩ := fits
    simp only [Option.some.injEq, documentType.injEq] at made
    obtain ⟨named, spaces, rest⟩ := made
    rw [named] at word
    generalize (keyword ++ space ++ content).drop 7 = after at solid spaces rest
    subst spaces rest
    refine ⟨word, fun b member => List.all_eq_true.1 List.all_takeWhile b member, ?_⟩
    have first := List.head?_dropWhile_not isSpace after
    cases left : after.dropWhile isSpace with
    | nil =>
      have all : after.takeWhile isSpace = after := by
        have split := List.takeWhile_append_dropWhile (p := isSpace) (l := after)
        rwa [left, List.append_nil] at split
      obtain ⟨b, member, solid⟩ := List.any_eq_true.1 solid
      rw [← all] at member
      simp [List.all_eq_true.1 List.all_takeWhile b member] at solid
    | cons b content => exact ⟨b, content, rfl, by simpa [left] using first⟩
  · simp at made

theorem isSound_copy_documentType {keyword space content : Bytes}
    (sound : (documentType keyword space content).IsSound) :
    (documentType (ascii "DOCTYPE") [byte ' '] content).IsSound := by
  obtain ⟨word, spaces, b, content, rfl, solid⟩ := IsSound.documentType sound
  have closed := sound.2.1
  -- There are no brackets before the content.
  have plain : ∀ b ∈ keyword ++ space, b ≠ byte '<' ∧ b ≠ byte '>' := by
    intro b member
    obtain letter | blank := List.mem_append.1 member
    · have capitals : capital b ∈ ascii "DOCTYPE" := word ▸ List.mem_map_of_mem letter
      constructor <;> rintro rfl <;> exact absurd capitals (by decide)
    · have space := isSpace_plain (spaces b blank)
      exact ⟨space.2.2.2, space.2.2.1⟩
  rw [depthAfter?_append, depthAfter?_of_plain plain, Option.bind_some] at closed
  refine ⟨⟨byte 'D', rfl, .inl rfl⟩, ?_, ?_⟩
  · rw [depthAfter?_append, depthAfter?_of_plain (forall_mem_of_all (by decide)),
      Option.bind_some, closed]
  · have before : (ascii "DOCTYPE" ++ [byte ' '] ++ b :: content).take 7 = ascii "DOCTYPE" := rfl
    have behind : (ascii "DOCTYPE" ++ [byte ' '] ++ b :: content).drop 7 =
        byte ' ' :: b :: content := rfl
    have blank : isSpace (byte ' ') = true := by decide
    have capitals : (ascii "DOCTYPE").map capital = ascii "DOCTYPE" := by decide
    simp only [documentType?, before, behind, capitals]
    simp [blank, solid]

/-- A token stays sound in the form it is copied in. -/
theorem IsSound.copy {t : Token} (sound : t.IsSound) : t.copy.IsSound := by
  cases t with
  | closing name space => exact isSound_copy_closing sound
  | documentType keyword space content => exact isSound_copy_documentType sound
  | _ => exact sound

end Token

theorem Token.source_eq_cons {t : Token} (markup : t.isText = false) :
    ∃ rest, t.source = byte '<' :: rest := by
  cases t with
  | text content => simp [isText] at markup
  | _ => exact ⟨_, rfl⟩

/-- The sources of sound tokens are scanned to them when texts stand apart. -/
theorem finish_sources {tokens : List Token} (sound : ∀ t ∈ tokens, t.IsSound)
    (apart : tokens.IsChain Token.Apart) (earlier : List Token) (raw : Bytes)
    (fresh : raw ≠ [] → ∀ t ∈ tokens.head?, t.isText = false) :
    ((tokens.flatMap Token.source).foldl step ⟨earlier, .text raw⟩).finish =
      ⟨(endText ⟨earlier, .text raw⟩ raw).reverse ++ tokens, true⟩ := by
  induction tokens generalizing earlier raw with
  | nil => simp [finish]
  | cons t tokens ih =>
    rw [List.forall_mem_cons] at sound
    rw [List.isChain_cons] at apart
    rw [List.flatMap_cons, List.foldl_append]
    cases markup : t.isText with
    | true =>
      cases t with
      | text content =>
        obtain ⟨nonempty, free⟩ := sound.1
        obtain rfl : raw = [] := by
          by_contra some
          simpa [Token.isText] using fresh some _ rfl
        have read : (Token.text content).source.foldl step ⟨earlier, .text []⟩ =
            ⟨earlier, .text content.reverse⟩ := by
          have read := foldl_step_text free earlier []
          rwa [List.append_nil] at read
        rw [read, ih sound.2 apart.2]
        · simp [endText, nonempty]
        · intro _ t head
          have other := apart.1 t head
          simpa [Token.Apart, Token.isText] using other
      | _ => simp [Token.isText] at markup
    | false =>
      have read : t.source.foldl step ⟨earlier, .text raw⟩ =
          ⟨t :: endText ⟨earlier, .text raw⟩ raw, .text []⟩ := by
        obtain ⟨rest, source⟩ := Token.source_eq_cons markup
        have alone := foldl_step_after (sound.1.foldl_source markup)
          (endText ⟨earlier, .text raw⟩ raw)
        rw [source] at alone ⊢
        exact alone
      rw [read, ih sound.2 apart.2 _ _ (by simp)]
      simp [endText]

/-- What is put together from tokens is scanned to them exactly if they are sound and no byte
    order mark goes before. -/
theorem scan_sources_iff {tokens : List Token} (apart : tokens.IsChain Token.Apart) :
    Scan.of (tokens.flatMap Token.source) = ⟨tokens, true⟩ ↔
      (∀ t ∈ tokens, t.IsSound) ∧
        dropMark (tokens.flatMap Token.source) = tokens.flatMap Token.source := by
  constructor
  · intro scanned
    have fits := fits_scan (congrArg Scan.isWhole scanned)
    rw [scanned] at fits
    exact ⟨fits.1, fits.2.2.symm⟩
  · rintro ⟨sound, unmarked⟩
    rw [Scan.of, unmarked]
    exact finish_sources sound apart [] [] (by simp)

/-! ## Byte order marks -/

/-- The byte order mark. -/
def mark : Bytes := [0xEF, 0xBB, 0xBF]

theorem dropMark_eq_self_iff (content : Bytes) :
    dropMark content = content ↔ ¬ mark <+: content := by
  have unfolded : dropMark content = if mark.isPrefixOf content then content.drop 3 else content :=
    rfl
  rw [unfolded, ← List.isPrefixOf_iff_prefix]
  by_cases begins : mark.isPrefixOf content = true
  · obtain ⟨rest, rfl⟩ := List.isPrefixOf_iff_prefix.1 begins
    have shorter : (mark ++ rest).drop 3 ≠ mark ++ rest := by
      intro same
      have length := congrArg List.length same
      simp [mark] at length
      omega
    simp [begins, shorter]
  · simp [begins]

/-- Markup follows a text. -/
theorem bracket_of_head_sources {tokens : List Token}
    (markup : ∀ t ∈ tokens.head?, t.isText = false) :
    ∀ b ∈ (tokens.flatMap Token.source).head?, b = byte '<' := by
  cases tokens with
  | nil => simp
  | cons t tokens =>
    obtain ⟨rest, source⟩ := Token.source_eq_cons (markup t rfl)
    intro b head
    rw [List.flatMap_cons, source] at head
    exact (Option.some.inj head).symm

theorem Token.Apart.markup {content : Bytes} {t : Token} (apart : (text content).Apart t) :
    t.isText = false := by
  simpa [Apart, isText] using apart

/-- A mark goes before some tokens exactly if the first of them is a text with it. -/
theorem mark_prefix_sources_iff {tokens : List Token} (apart : tokens.IsChain Token.Apart) :
    mark <+: tokens.flatMap Token.source ↔
      ∃ content, tokens.head? = some (.text content) ∧ mark <+: content := by
  cases tokens with
  | nil => simp [mark]
  | cons t tokens =>
    rw [List.flatMap_cons]
    cases markup : t.isText with
    | false =>
      have other : ∀ content, t ≠ .text content := by
        rintro content rfl
        simp [Token.isText] at markup
      obtain ⟨rest, source⟩ := Token.source_eq_cons markup
      have unmarked : ¬ mark <+: byte '<' :: rest ++ tokens.flatMap Token.source := by
        rw [mark, List.cons_append, List.cons_prefix_cons]
        exact fun both => absurd both.1 (by decide)
      rw [source]
      simpa [other] using unmarked
    | true =>
      cases t with
      | text content =>
        rw [List.isChain_cons] at apart
        have after := bracket_of_head_sources fun t head => (apart.1 t head).markup
        generalize tokens.flatMap Token.source = rest at after
        simp only [Token.source, List.head?_cons, Option.some.injEq, Token.text.injEq,
          exists_eq_left']
        constructor
        · intro begins
          obtain within | short :=
            List.prefix_or_prefix_of_prefix begins (List.prefix_append content rest)
          · exact within
          · -- The mark would go on with a bracket, which it does not have.
            obtain ⟨more, shape⟩ := short
            rw [← shape, List.prefix_append_right_inj] at begins
            cases more with
            | nil => exact ⟨[], by simpa using shape.symm⟩
            | cons b more =>
              obtain ⟨last, rfl⟩ := begins
              have bracket : byte '<' ∈ mark := by
                rw [← shape, ← after b rfl]
                simp
              exact absurd bracket (by decide)
        · exact fun begins => begins.trans (List.prefix_append content rest)
      | _ => simp [Token.isText] at markup

end MessageConformance.Schema
