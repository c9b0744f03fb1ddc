import ReplicaController.Instant.Text
import ReplicaController.Proofs.Instant.Calendar
import ReplicaController.Proofs.Text.Numeral

/-!
# Instants and their text

An instant is read back from its text. Each part of the text is read by the reader of that part,
which leaves what follows: the year ends where its digits do, every other part has its width, and a
fraction ends at the zone.
-/

namespace ReplicaController.Instant

open Text (isDigit isBlank decimalValue padded trimStart)

theorem takeWhile_take_append {width : Nat} {digits cs : List Char}
    (hdigits : ∀ c ∈ digits, isDigit c) (hwidth : digits.length ≤ width)
    (hend : (cs.take (width - digits.length)).takeWhile isDigit = []) :
    ((digits ++ cs).take width).takeWhile isDigit = digits := by
  rw [List.take_append, List.take_of_length_le hwidth, List.takeWhile_append_of_pos hdigits, hend,
    List.append_nil]

theorem takeWhile_take_cons {c : Char} (h : isDigit c = false) (width : Nat) (cs : List Char) :
    ((c :: cs).take width).takeWhile isDigit = [] := by
  cases width with
  | zero => rfl
  | succ width => simp [h]

theorem number?_append {width : Nat} {digits cs : List Char} (hdigits : ∀ c ∈ digits, isDigit c)
    (hne : digits ≠ []) (hwidth : digits.length ≤ width)
    (hend : (cs.take (width - digits.length)).takeWhile isDigit = []) :
    number? width (digits ++ cs) = some (decimalValue digits, cs) := by
  unfold number?
  rw [takeWhile_take_append hdigits hwidth hend]
  split
  · exact absurd rfl hne
  · rw [List.drop_left]

theorem number?_padded {width n : Nat} (hwidth : 0 < width) (h : n < 10 ^ width)
    (cs : List Char) : number? width (padded width n ++ cs) = some (n, cs) := by
  have hlen := Text.length_padded hwidth h
  rw [number?_append (fun _ => Text.isDigit_of_mem_padded) (Text.padded_ne_nil width n) hlen.le
    (by simp [hlen]), Text.decimalValue_padded]

theorem part?_padded {n : Nat} (h : n < 100) (cs : List Char) :
    part? (padded 2 n ++ cs) = some (n, cs) := by
  rw [part?, Text.trimStart_padded, number?_padded (by decide) h]

theorem mark?_cons {c : Char} (h : isBlank c = false) (cs : List Char) :
    mark? c (c :: cs) = some cs := by
  simp [mark?, Text.trimStart_cons h]

theorem signedYear?_padded {n : Nat} (h : n < yearLimit) (cs : List Char) :
    signedYear? (padded 4 n ++ '-' :: cs) = some (n, '-' :: cs) := by
  unfold signedYear?
  rw [number?_append (fun _ => Text.isDigit_of_mem_padded) (Text.padded_ne_nil 4 n) (by simp)
    (takeWhile_take_cons (by decide) _ cs), Text.decimalValue_padded]
  simp [h]

theorem year?_padded {n : Nat} (h : n < 10000) (cs : List Char) :
    year? (padded 4 n ++ cs) = some ((n : Int), cs) := by
  have hnumber : number? 4 (padded 4 n ++ cs) = some (n, cs) := number?_padded (by decide) h cs
  obtain ⟨c, ds, hc, hpadded⟩ := Text.exists_padded_eq_cons 4 n
  unfold year?
  rw [Text.trimStart_padded]
  rw [hpadded, List.cons_append] at hnumber ⊢
  have hsign : ∀ d cs', isDigit d = false → c :: (ds ++ cs) ≠ d :: cs' := by
    intro d cs' hd heq
    rw [(List.cons.inj heq).1, hd] at hc
    contradiction
  split
  · exact absurd ‹_› (hsign '-' _ (by decide))
  · exact absurd ‹_› (hsign '+' _ (by decide))
  · rw [hnumber, Option.map_some]

theorem year?_yearText {y : Int} (h : y.natAbs < yearLimit) (cs : List Char) :
    year? (yearText y ++ '-' :: cs) = some (y, '-' :: cs) := by
  unfold yearText
  split
  · rename_i hy
    rw [year?_padded (by omega), Int.toNat_of_nonneg hy.1]
  rw [List.cons_append]
  by_cases hneg : y < 0
  · have hy : -(y.natAbs : Int) = y := by omega
    simp only [hneg, if_true, year?, Text.trimStart_cons (c := '-') (by decide),
      signedYear?_padded h, Option.map_some, hy]
  · have hy : (y.natAbs : Int) = y := by omega
    simp only [hneg, if_false, year?, Text.trimStart_cons (c := '+') (by decide),
      signedYear?_padded h, Option.map_some, hy]

theorem date?_text {d : Date} (hyear : d.year.natAbs < yearLimit) (hmonth : d.month < 100)
    (hday : d.day < 100) (cs : List Char) :
    date? (yearText d.year ++ '-' :: (padded 2 d.month ++ '-' :: (padded 2 d.day ++ cs))) =
      some (d, cs) := by
  have hyphen : isBlank '-' = false := by decide
  simp [date?, year?_yearText hyear, mark?_cons hyphen, part?_padded hmonth, part?_padded hday]

theorem fraction?_padded {width n : Nat} (h0 : 0 < width) (h9 : width ≤ 9) (h : n < 10 ^ width) :
    fraction? ('.' :: (padded width n ++ ['Z'])) = some (n * 10 ^ (9 - width), ['Z']) := by
  have hlen := Text.length_padded h0 h
  have hdigits : ∀ c ∈ padded width n, isDigit c = true := fun _ => Text.isDigit_of_mem_padded
  have hzone : isDigit 'Z' = false := by decide
  have htake : ((padded width n ++ ['Z']).take 9).takeWhile isDigit = padded width n :=
    takeWhile_take_append hdigits (hlen.trans_le h9) (takeWhile_take_cons hzone _ [])
  have hdrop : (padded width n ++ ['Z']).dropWhile isDigit = ['Z'] := by
    rw [List.dropWhile_append_of_pos hdigits, List.dropWhile_cons_of_neg (by simp [hzone])]
  unfold fraction?
  simp only [htake, hdrop]
  split
  · exact absurd ‹_› (Text.padded_ne_nil width n)
  · simp [hlen, Text.decimalValue_padded]

theorem fraction?_fractionText {nano : Nat} (h : nano < 1000000000) :
    fraction? (fractionText nano ++ ['Z']) = some (nano, ['Z']) := by
  unfold fractionText
  split
  · simp [fraction?, *]
  split
  · rw [List.cons_append, fraction?_padded (by decide) (by decide) (by omega)]
    congr
    omega
  split
  · rw [List.cons_append, fraction?_padded (by decide) (by decide) (by omega)]
    congr
    omega
  · rw [List.cons_append, fraction?_padded (by decide) (by decide) h]
    simp

theorem zone?_utc : zone? ['Z'] = some (0, []) := by
  decide

/-- Second sixty is a leap second, which follows second fifty-nine. -/
theorem time?_text {second nano : Nat} (hsecond : second < 86400) (hnano : nano < 2000000000)
    (hleap : 1000000000 ≤ nano → second % 60 = 59) :
    time? (padded 2 (second / 3600) ++ ':' :: (padded 2 (second / 60 % 60) ++ ':' ::
      (padded 2 (second % 60 + nano / 1000000000) ++
        (fractionText (nano % 1000000000) ++ ['Z'])))) = some ((second, nano), ['Z']) := by
  have colon : isBlank ':' = false := by decide
  have hhour : second / 3600 < 24 := by omega
  have hminute : second / 60 % 60 < 60 := by omega
  have hsec : second % 60 + nano / 1000000000 ≤ 60 := by omega
  have hfraction : fraction? (fractionText (nano % 1000000000) ++ ['Z']) =
      some (nano % 1000000000, ['Z']) := fraction?_fractionText (by omega)
  simp only [time?, part?_padded (hhour.trans (by decide)),
    part?_padded (hminute.trans (by decide)), part?_padded (hsec.trans_lt (by decide)),
    mark?_cons colon, hfraction, hhour, hminute, hsec, Option.bind_eq_bind, Option.bind_some,
    and_self, if_true]
  split
  · congr <;> omega
  · congr <;> omega

theorem date?_ofDay {day : Int} (hfirst : Date.firstDay ≤ day) (hlast : day ≤ Date.lastDay)
    (cs : List Char) :
    date? (yearText (Date.ofDay day).year ++ '-' :: (padded 2 (Date.ofDay day).month ++ '-' ::
      (padded 2 (Date.ofDay day).day ++ cs))) = some (Date.ofDay day, cs) := by
  have hvalid := Date.isValid_ofDay hfirst hlast
  generalize Date.ofDay day = d at *
  simp only [Date.isValid, Bool.and_eq_true, decide_eq_true_eq] at hvalid
  have hlength := Date.monthLength_le d.year d.month
  refine date?_text ?_ ?_ ?_ cs
  · simp only [Date.minYear, Date.maxYear] at hvalid
    simp only [yearLimit]
    omega
  · omega
  · omega

theorem ofText?_text (t : Instant) : ofText? t.text = some t := by
  have hdate := date?_ofDay t.firstDay_le t.le_lastDay
  have htime := time?_text t.second_lt t.nano_lt t.leap
  have hvalid := Date.isValid_ofDay t.firstDay_le t.le_lastDay
  have hday := Date.toDay_ofDay t.day
  have hsecond := t.second_lt
  simp only [ofText?, text, String.toList_ofList, List.append_assoc, List.cons_append, hdate,
    separator?, htime, zone?_utc, Option.bind_eq_bind, Option.bind_some]
  rw [if_pos (by simp [hvalid, trimStart]), ofParts?_eq_some_iff]
  omega

end ReplicaController.Instant
