import BatchRun.Json.Printer
import BatchRun.Json.Token
import BatchRun.Proofs.Text.Encoding
import Mathlib.Tactic.SplitIfs

/-!
# Strings of documents

**Result.**
* `stringTail_quoted`: what is read of a quoted string behind its quotation mark is the string.
-/

namespace BatchRun
namespace Json

open Text

/-- Bytes that stand for themselves in a string. -/
def isPlain (byte : UInt8) : Bool := byte != 34 && byte != 92 && !(byte < 32)

section Bytes

variable {read rest : Bytes} {byte letter : UInt8}

theorem stringBytes_plain
    (h : isPlain byte = true) :
    stringBytes read (byte :: rest) = stringBytes (byte :: read) rest := by
  simp only [isPlain, Bool.and_eq_true, bne_iff_ne, Bool.not_eq_true', decide_eq_false_iff_not] at h
  obtain ⟨⟨hquote, hslash⟩, hcontrol⟩ := h
  rw [stringBytes.eq_def]
  simp [hquote, hslash, hcontrol]

theorem stringBytes_append
    {bytes : Bytes}
    (h : ∀ byte ∈ bytes, isPlain byte = true) :
    stringBytes read (bytes ++ rest) = stringBytes (bytes.reverse ++ read) rest := by
  induction bytes generalizing read with
  | nil => rfl
  | cons byte bytes ih =>
      rw [List.cons_append, stringBytes_plain (h byte List.mem_cons_self),
        ih fun other hother => h other (List.mem_cons_of_mem byte hother)]
      simp

theorem stringBytes_simple
    (h : simpleEscape? letter = some byte)
    (plain : letter ≠ code 'u') :
    stringBytes read (92 :: letter :: rest) = stringBytes (byte :: read) rest := by
  rw [stringBytes.eq_def]
  simp [plain, h]

theorem stringBytes_unicode
    {a b c d : UInt8} {unit : Nat}
    (h : hexWord? a b c d = some unit)
    (small : unit < 0xD800) :
    stringBytes read (92 :: code 'u' :: a :: b :: c :: d :: rest) =
      stringBytes (reversedUtf8 unit ++ read) rest := by
  have htrailing : isTrailingSurrogate unit = false := by
    simp [isTrailingSurrogate]
    omega
  have hleading : isLeadingSurrogate unit = false := by
    simp [isLeadingSurrogate]
    omega
  rw [stringBytes.eq_def]
  simp [h, htrailing, hleading]

theorem stringBytes_quote :
    stringBytes read (34 :: rest) = .ok (read.reverse, rest) := by
  rw [stringBytes.eq_def]
  simp

end Bytes

/-- A control character is written as a word of four digits. -/
theorem hexWord?_control :
    ∀ n < 32, hexWord? 48 48 (code (hexDigit (n / 16))) (code (hexDigit (n % 16))) = some n := by
  decide

theorem hexDigit_lt :
    ∀ n < 32, (hexDigit (n / 16)).toNat < 128 ∧ (hexDigit (n % 16)).toNat < 128 := by
  decide

theorem isPlain_of_mem_encodeChar
    {c : Char} {byte : UInt8}
    (quote : c ≠ '"')
    (slash : c ≠ '\\')
    (printable : 32 ≤ c.toNat)
    (h : byte ∈ String.utf8EncodeChar c) :
    isPlain byte = true := by
  have hplain : ∀ n, byte.toNat = n → 32 ≤ n → n ≠ 34 → n ≠ 92 → isPlain byte = true := by
    intro n hn hprintable hquote hslash
    have h34 : byte ≠ 34 := fun heq => hquote (by rw [← hn, heq]; rfl)
    have h92 : byte ≠ 92 := fun heq => hslash (by rw [← hn, heq]; rfl)
    have h32 : ¬ byte < 32 := by
      rw [UInt8.lt_iff_toNat_lt, hn]
      exact Nat.not_lt.mpr hprintable
    simp [isPlain, h34, h92, h32]
  by_cases hascii : c.toNat < 128
  · rw [encodeChar_of_lt hascii] at h
    have hbyte : byte.toNat = c.toNat := by
      rw [List.mem_singleton.mp h]
      simp
      omega
    have hne : ∀ d : Char, c ≠ d → c.toNat ≠ d.toNat := fun d hd heq => hd (Char.toNat_inj.mp heq)
    exact hplain c.toNat hbyte printable (hne '"' quote) (hne '\\' slash)
  · have hhigh := high_of_mem_encodeChar (Nat.not_lt.mp hascii) h
    exact hplain byte.toNat rfl (by omega) (by omega) (by omega)

/-- An escaped character is read as the bytes of the character. -/
theorem stringBytes_escapeChar
    (c : Char)
    (read rest : Bytes) :
    stringBytes read (encoded (escapeChar c) ++ rest) =
      stringBytes ((String.utf8EncodeChar c).reverse ++ read) rest := by
  unfold escapeChar
  split_ifs with hquote hslash hback hfeed hline hreturn htab hcontrol
  -- the seven letters for single characters
  any_goals
    subst c
    exact stringBytes_simple rfl (by decide)
  case pos =>
      obtain ⟨hhigh, hlow⟩ := hexDigit_lt c.toNat hcontrol
      rw [encoded_ascii _ (by decide), encoded_ascii _ (by decide), encoded_ascii _ (by decide),
        encoded_ascii _ (by decide), encoded_ascii _ hhigh, encoded_ascii _ hlow]
      refine (stringBytes_unicode (hexWord?_control c.toNat hcontrol) (by omega)).trans ?_
      rw [reversedUtf8, Char.ofNat_toNat]
      rfl
  case neg =>
      have hplain : ∀ byte ∈ String.utf8EncodeChar c, isPlain byte = true := fun byte hbyte =>
        isPlain_of_mem_encodeChar hquote hslash (Nat.not_lt.mp hcontrol) hbyte
      rw [encoded_cons, encoded_nil, List.append_nil]
      exact stringBytes_append hplain

theorem stringBytes_escaped
    (cs : List Char)
    (read rest : Bytes) :
    stringBytes read (encoded (cs.flatMap escapeChar) ++ rest) =
      stringBytes ((encoded cs).reverse ++ read) rest := by
  induction cs generalizing read with
  | nil => rfl
  | cons c cs ih =>
      rw [List.flatMap_cons, encoded_append, List.append_assoc, stringBytes_escapeChar, ih,
        encoded_cons, List.reverse_append, List.append_assoc]

/-- A quoted string is read back behind its quotation mark. -/
theorem stringTail_quoted
    (text : String)
    (rest : Bytes) :
    stringTail (encoded (text.toList.flatMap escapeChar) ++ 34 :: rest) = .ok (text, rest) := by
  have hbytes : stringBytes [] (encoded (text.toList.flatMap escapeChar) ++ 34 :: rest) =
      .ok (bytesOf text, rest) := by
    rw [stringBytes_escaped, stringBytes_quote, List.append_nil, List.reverse_reverse,
      bytesOf_eq_encoded]
  unfold stringTail
  simp [hbytes]

theorem encoded_quoted
    (text : String) :
    encoded (quoted text) = 34 :: (encoded (text.toList.flatMap escapeChar) ++ [34]) := by
  rw [quoted, encoded_ascii _ (by decide), encoded_append]
  rfl

end Json
end BatchRun
