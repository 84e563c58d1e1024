/-
  Timestamps read back from their texts.

  A number in exactly `n` digits is read as itself if it has no more (`takeNumber_paddedDigits`),
  the digits that a fraction is printed with are all that it needs (`nanoseconds_paddedDigits`), and
  the fields of a timestamp are in range by its type. So the text of a timestamp is read as the same
  point in time if its year has four digits (`read_text`). Any other year is printed behind a sign,
  which no year may have that is read (`read_text_of_not`).
-/
import Autopilot.Proofs.Text.Boundaries
import Autopilot.Timestamp
import Mathlib.Tactic.Ring

namespace Autopilot.Timestamp

/-- The year has four digits, as the years of RFC 3339 do. -/
def FourDigitYear (t : Timestamp) : Prop :=
  0 ≤ t.date.year ∧ t.date.year < 10000

instance : DecidablePred FourDigitYear :=
  fun t => inferInstanceAs (Decidable (0 ≤ t.date.year ∧ t.date.year < 10000))

/-! ## Steps of reading -/

theorem bind_of_eq {α β : Type} {x : Reader α} {f : α → Reader β} {cs rest : List Char} {a : α}
    (h : x cs = .ok (a, rest)) : (x >>= f) cs = f a rest := by
  have hbind : (x >>= f) cs = (x cs >>= fun p => f p.1 p.2) := rfl
  rw [hbind, h]
  rfl

theorem bind_of_error {α β : Type} {x : Reader α} {f : α → Reader β} {cs : List Char}
    {defect : TimeDefect} (h : x cs = .error defect) : (x >>= f) cs = .error defect := by
  have hbind : (x >>= f) cs = (x cs >>= fun p => f p.1 p.2) := rfl
  rw [hbind, h]
  rfl

theorem takeOne_cons {allowed : List Char} {c : Char} (h : c ∈ allowed) (rest : List Char) :
    takeOne allowed (c :: rest) = .ok ((), rest) := by
  have htake : takeOne allowed (c :: rest) =
      (if c ∈ allowed then pure () else throw .invalid : Reader Unit) rest := rfl
  rw [htake, if_pos h]
  rfl

/-! ## Numbers -/

theorem isDigit_digitChar {d : Nat} (h : d < 10) : (Nat.digitChar d).isDigit = true := by
  have hall : ∀ d < 10, (Nat.digitChar d).isDigit = true := by decide
  exact hall d h

theorem toNat_digitChar {d : Nat} (h : d < 10) : (Nat.digitChar d).toNat - 48 = d := by
  have hall : ∀ d < 10, (Nat.digitChar d).toNat - 48 = d := by decide
  exact hall d h

theorem isDigit_of_mem_paddedDigits {n v : Nat} {c : Char} (h : c ∈ paddedDigits n v) :
    c.isDigit = true := by
  induction n with
  | zero => cases h
  | succ n ih =>
    rcases List.mem_cons.mp h with rfl | h
    · exact isDigit_digitChar (Nat.mod_lt _ (by decide))
    · exact ih h

theorem length_paddedDigits (n v : Nat) : (paddedDigits n v).length = n := by
  induction n with
  | zero => rfl
  | succ n ih => exact congrArg (· + 1) ih

/-- The low `n` digits of a number, behind those that stand in front. -/
theorem foldl_paddedDigits (front n v : Nat) :
    (paddedDigits n v).foldl (fun n c => 10 * n + (c.toNat - 48)) front =
      front * 10 ^ n + v % 10 ^ n := by
  induction n generalizing front with
  | zero =>
    rw [Nat.pow_zero, Nat.mul_one, Nat.mod_one]
    rfl
  | succ n ih =>
    have hdigit : v / 10 ^ n % 10 < 10 := Nat.mod_lt _ (by decide)
    have hsplit : v % 10 ^ (n + 1) = v % 10 ^ n + 10 ^ n * (v / 10 ^ n % 10) := by
      rw [Nat.pow_succ, Nat.mod_mul]
    show (paddedDigits n v).foldl _
      (10 * front + ((Nat.digitChar (v / 10 ^ n % 10)).toNat - 48)) = _
    rw [toNat_digitChar hdigit, ih, hsplit]
    ring

/-- Digits are read as the number that they make up with those in front. -/
theorem takeNumber_append (front : Nat) {cs : List Char} (h : ∀ c ∈ cs, c.isDigit = true)
    (rest : List Char) : takeNumber front cs.length (cs ++ rest) =
      .ok (cs.foldl (fun n c => 10 * n + (c.toNat - 48)) front, rest) := by
  induction cs generalizing front with
  | nil => rfl
  | cons c cs ih =>
    have hstep : takeNumber front (c :: cs).length (c :: cs ++ rest) =
        (if c.isDigit then takeNumber (10 * front + (c.toNat - 48)) cs.length
          else throw .invalid : Reader Nat) (cs ++ rest) := rfl
    rw [hstep, if_pos (h c List.mem_cons_self),
      ih _ fun c' hc' => h c' (List.mem_cons_of_mem c hc')]
    rfl

theorem takeNumber_paddedDigits {n v : Nat} (h : v < 10 ^ n) (rest : List Char) :
    takeNumber 0 n (paddedDigits n v ++ rest) = .ok (v, rest) := by
  have htake := takeNumber_append 0 (fun _ hc => isDigit_of_mem_paddedDigits (n := n) (v := v) hc)
    rest
  rwa [length_paddedDigits, foldl_paddedDigits, Nat.zero_mul, Nat.zero_add, Nat.mod_eq_of_lt h]
    at htake

/-- What is no digit is no number. -/
theorem takeNumber_of_not {c : Char} (h : c.isDigit = false) (front n : Nat) (rest : List Char) :
    takeNumber front (n + 1) (c :: rest) = .error .invalid := by
  have hstep : takeNumber front (n + 1) (c :: rest) =
      (if c.isDigit then takeNumber (10 * front + (c.toNat - 48)) n
        else throw .invalid : Reader Nat) rest := rfl
  rw [hstep, if_neg (by rw [h]; decide)]
  rfl

/-! ## Fractions -/

theorem paddedDigits_add (m n v : Nat) :
    paddedDigits (m + n) v = paddedDigits m (v / 10 ^ n) ++ paddedDigits n v := by
  induction m with
  | zero => rw [Nat.zero_add]; rfl
  | succ m ih =>
    have hdigit : v / 10 ^ n / 10 ^ m = v / 10 ^ (m + n) := by
      rw [Nat.div_div_eq_div_mul, ← Nat.pow_add, Nat.add_comm]
    have hlength : m + 1 + n = m + n + 1 := by omega
    rw [hlength]
    show Nat.digitChar (v / 10 ^ (m + n) % 10) :: paddedDigits (m + n) v =
      Nat.digitChar (v / 10 ^ n / 10 ^ m % 10) :: (paddedDigits m (v / 10 ^ n) ++ paddedDigits n v)
    rw [ih, hdigit]

theorem paddedDigits_of_mod {n v : Nat} (h : v % 10 ^ n = 0) :
    paddedDigits n v = List.replicate n '0' := by
  induction n with
  | zero => rfl
  | succ n ih =>
    have hsplit : v % 10 ^ (n + 1) = v % 10 ^ n + 10 ^ n * (v / 10 ^ n % 10) := by
      rw [Nat.pow_succ, Nat.mod_mul]
    have hpos : 0 < 10 ^ n := Nat.pow_pos (by decide)
    have hlow : v % 10 ^ n = 0 := by omega
    have hdigit : v / 10 ^ n % 10 = 0 := by
      have hproduct : 10 ^ n * (v / 10 ^ n % 10) = 0 := by omega
      exact (Nat.mul_eq_zero.mp hproduct).resolve_left (by omega)
    show Nat.digitChar (v / 10 ^ n % 10) :: paddedDigits n v = _
    rw [hdigit, ih hlow]
    rfl

/-- Digits behind which there are only zeros stand for the whole fraction. -/
theorem nanoseconds_paddedDigits {m n v : Nat} (hlength : m + n = 9) (hv : v < 10 ^ 9)
    (hzeros : v % 10 ^ n = 0) : nanoseconds (paddedDigits m (v / 10 ^ n)) = v := by
  have hle : n ≤ 9 := by omega
  have hdigits : (paddedDigits m (v / 10 ^ n) ++ List.replicate 9 '0').take 9 =
      paddedDigits 9 v := by
    rw [List.take_append, length_paddedDigits,
      List.take_of_length_le (by rw [length_paddedDigits]; omega), List.take_replicate,
      show min (9 - m) 9 = n by omega, ← paddedDigits_of_mod hzeros, ← paddedDigits_add, hlength]
  unfold nanoseconds
  rw [hdigits, foldl_paddedDigits, Nat.zero_mul, Nat.zero_add, Nat.mod_eq_of_lt hv]

/-- Digits behind a point are taken up to the next character that is none. -/
theorem takeFraction_digits {d c : Char} {digits : List Char} (rest : List Char)
    (hd : ∀ c ∈ d :: digits, c.isDigit = true) (hc : c.isDigit = false) :
    takeFraction ('.' :: (d :: digits ++ c :: rest)) =
      .ok (nanoseconds (d :: digits), c :: rest) := by
  have hstep : takeFraction ('.' :: (d :: digits ++ c :: rest)) =
      (takeNumber 0 1 >>= fun _ => do
        modify (·.dropWhile Char.isDigit)
        pure (nanoseconds ((d :: digits ++ c :: rest).takeWhile Char.isDigit)) : Reader Nat)
        (d :: digits ++ c :: rest) := rfl
  have hfirst : takeNumber 0 1 (d :: digits ++ c :: rest) =
      .ok (10 * 0 + (d.toNat - 48), digits ++ c :: rest) := by
    refine takeNumber_append 0 (fun c' (hc' : c' ∈ [d]) => ?_) (digits ++ c :: rest)
    rw [List.mem_singleton.mp hc']
    exact hd d List.mem_cons_self
  have hstop : ¬ c.isDigit = true := by rw [hc]; decide
  have htaken : (d :: digits ++ c :: rest).takeWhile Char.isDigit = d :: digits := by
    rw [List.takeWhile_append_of_pos hd, List.takeWhile_cons_of_neg hstop, List.append_nil]
  have hleft : (digits ++ c :: rest).dropWhile Char.isDigit = c :: rest := by
    rw [List.dropWhile_append_of_pos fun c hc => hd c (List.mem_cons_of_mem d hc),
      List.dropWhile_cons_of_neg hstop]
  rw [hstep, bind_of_eq hfirst, htaken]
  show Except.ok (nanoseconds (d :: digits), (digits ++ c :: rest).dropWhile Char.isDigit) = _
  rw [hleft]

/-- A fraction that is printed with its first digits only is read back. -/
theorem takeFraction_paddedDigits {m n v : Nat} (hlength : m + 1 + n = 9) (hv : v < 10 ^ 9)
    (hzeros : v % 10 ^ n = 0) {c : Char} (hc : c.isDigit = false) (rest : List Char) :
    takeFraction (("." ++ padded (m + 1) (v / 10 ^ n)).toList ++ c :: rest) =
      .ok (v, c :: rest) := by
  have htext : ("." ++ padded (m + 1) (v / 10 ^ n)).toList ++ c :: rest =
      '.' :: (paddedDigits (m + 1) (v / 10 ^ n) ++ c :: rest) := by
    unfold padded
    simp only [String.toList_append, String.toList_ofList]
    rfl
  have hread := takeFraction_digits rest
    (fun c hc => isDigit_of_mem_paddedDigits (n := m + 1) (v := v / 10 ^ n) hc) hc
  have hvalue := nanoseconds_paddedDigits hlength hv hzeros
  rw [htext]
  exact hread.trans (congrArg (fun v => Except.ok (v, c :: rest)) hvalue)

/-- Without a point there is no fraction. -/
theorem takeFraction_of_ne {c : Char} (h : c ≠ '.') (rest : List Char) :
    takeFraction (c :: rest) = .ok (0, c :: rest) := by
  have hnext : ∀ rest', c :: rest ≠ '.' :: rest' := fun _ hsame => h (List.cons.inj hsame).1
  have hget : (get : Reader (List Char)) (c :: rest) = .ok (c :: rest, c :: rest) := rfl
  unfold takeFraction
  rw [bind_of_eq hget]
  generalize c :: rest = cs at hnext
  split
  next rest' => exact absurd rfl (hnext rest')
  next => rfl

theorem takeFraction_text {v : Nat} (hv : v < nanosecondsPerSecond) {c : Char}
    (hdigit : c.isDigit = false) (hpoint : c ≠ '.') (rest : List Char) :
    takeFraction ((fractionText v).toList ++ c :: rest) = .ok (v, c :: rest) := by
  unfold fractionText
  by_cases hnone : v = 0
  · rw [if_pos hnone, hnone]
    exact takeFraction_of_ne hpoint rest
  · rw [if_neg hnone]
    by_cases hmilli : v % 1000000 = 0
    · rw [if_pos hmilli]
      exact takeFraction_paddedDigits (m := 2) (n := 6) rfl hv hmilli hdigit rest
    · rw [if_neg hmilli]
      by_cases hmicro : v % 1000 = 0
      · rw [if_pos hmicro]
        exact takeFraction_paddedDigits (m := 5) (n := 3) rfl hv hmicro hdigit rest
      · rw [if_neg hmicro]
        have hread := takeFraction_paddedDigits (m := 8) (n := 0) rfl hv (Nat.mod_one v) hdigit rest
        rwa [Nat.pow_zero, Nat.div_one] at hread

end Autopilot.Timestamp

namespace Autopilot.TimeOfDay

/-- What is shown in front of the last second of a minute is a time of day, without a second on
    top. -/
theorem isTime_shown (t : TimeOfDay) (h : t.second < 59) :
    isTime t.hour t.minute t.shownSecond t.shownNanosecond = true := by
  have ht := isTime_iff.mp t.exists_
  rw [isTime_iff]
  unfold shownSecond shownNanosecond nanosecondsPerSecond at *
  omega

/-- The same time of day, with a second on top of another than the last one of its minute counted
    on to the next. -/
def settled (t : TimeOfDay) : TimeOfDay :=
  if h : t.second < 59 then
    ⟨t.hour, t.minute, t.shownSecond, t.shownNanosecond, isTime_shown t h⟩
  else t

/-- Without a second on top there is nothing to count on. -/
theorem settled_of_lt {t : TimeOfDay} (h : t.nanosecond < nanosecondsPerSecond) :
    t.settled = t := by
  obtain ⟨hour, minute, second, nanosecond, hexists⟩ := t
  dsimp only at h
  unfold settled shownSecond shownNanosecond
  simp only [Nat.div_eq_of_lt h, Nat.mod_eq_of_lt h, Nat.add_zero]
  split
  · rfl
  · rfl

theorem settled_settled (t : TimeOfDay) : t.settled.settled = t.settled := by
  by_cases hlast : t.second < 59
  · refine settled_of_lt ?_
    have hsettled : t.settled.nanosecond = t.shownNanosecond := by
      unfold settled
      rw [dif_pos hlast]
    rw [hsettled]
    exact Nat.mod_lt _ (by decide)
  · have hsettled : t.settled = t := dif_neg hlast
    rw [hsettled, hsettled]

theorem shown_lt (t : TimeOfDay) :
    t.shownSecond < 100 ∧ t.shownNanosecond < nanosecondsPerSecond := by
  have ht := isTime_iff.mp t.exists_
  unfold shownSecond shownNanosecond nanosecondsPerSecond at *
  omega

/-- What is shown of a time of day is that time of day. -/
theorem ofShown?_shown (t : TimeOfDay) :
    ofShown? t.hour t.minute t.shownSecond t.shownNanosecond = some t.settled := by
  have ht := isTime_iff.mp t.exists_
  unfold ofShown? settled
  by_cases hlast : t.second < 59
  · have hshown : t.shownSecond ≠ 60 := by
      unfold shownSecond nanosecondsPerSecond at *
      omega
    rw [if_neg hshown, dif_pos (isTime_shown t hlast), dif_pos hlast]
  · have hsecond : t.second = 59 := by omega
    rw [dif_neg hlast]
    obtain ⟨hour, minute, second, nanosecond, hexists⟩ := t
    dsimp only at hsecond ht
    subst hsecond
    unfold shownSecond shownNanosecond
    dsimp only
    by_cases hleap : nanosecond < nanosecondsPerSecond
    · have hshown : 59 + nanosecond / nanosecondsPerSecond ≠ 60 := by
        unfold nanosecondsPerSecond at *
        omega
      have hwhole : 59 + nanosecond / nanosecondsPerSecond = 59 := by
        unfold nanosecondsPerSecond at *
        omega
      rw [if_neg hshown]
      simp only [hwhole, Nat.mod_eq_of_lt hleap, hexists, dite_true]
    · have hshown : 59 + nanosecond / nanosecondsPerSecond = 60 := by
        unfold nanosecondsPerSecond at *
        omega
      have hfraction : nanosecond % nanosecondsPerSecond + nanosecondsPerSecond = nanosecond := by
        unfold nanosecondsPerSecond at *
        omega
      rw [if_pos hshown]
      simp only [hfraction, hexists, dite_true]

theorem atMinute_self (t : TimeOfDay) : t.atMinute (60 * t.hour + t.minute) = t := by
  have ht := isTime_iff.mp t.exists_
  obtain ⟨hour, minute, second, nanosecond, hexists⟩ := t
  dsimp only at ht
  have hhour : (60 * hour + minute) / 60 % 24 = hour := by omega
  have hminute : (60 * hour + minute) % 60 = minute := by omega
  unfold atMinute
  simp only [hhour, hminute]

end Autopilot.TimeOfDay

namespace Autopilot.Timestamp

/-- The same point in time, with its second counted on. -/
def settled (t : Timestamp) : Timestamp :=
  ⟨t.date, t.time.settled⟩

theorem settled_settled (t : Timestamp) : t.settled.settled = t.settled := by
  unfold settled
  rw [t.time.settled_settled]

/-- Clocks that are not ahead show the time itself. -/
theorem ofShown_zero (t : Timestamp) : ofShown t 0 = t := by
  have ht := isTime_iff.mp t.time.exists_
  have hminute : 60 * (t.time.hour : Int) + t.time.minute - 0 =
      ((60 * t.time.hour + t.time.minute : Nat) : Int) := by
    push_cast
    ring
  have hmod : (((60 * t.time.hour + t.time.minute : Nat) : Int) % 1440).toNat =
      60 * t.time.hour + t.time.minute := by omega
  unfold ofShown
  dsimp only
  rw [hminute, hmod, if_neg (by omega), if_pos (by omega), t.time.atMinute_self]

/-! ## Fields -/

theorem takeDate_text {d : Date} (hyear : 0 ≤ d.year ∧ d.year < 10000) (rest : List Char) :
    takeDate ((yearText d.year).toList ++ '-' :: (paddedDigits 2 d.month ++
      '-' :: (paddedDigits 2 d.day ++ rest))) = .ok (d, rest) := by
  have hdate := isDate_iff.mp d.exists_
  have hdays := (daysInMonth_bounds d.year d.month).2
  have hcast : (d.year.toNat : Int) = d.year := Int.toNat_of_nonneg hyear.1
  have htext : (yearText d.year).toList = paddedDigits 4 d.year.toNat := by
    unfold yearText padded
    rw [if_pos hyear, String.toList_ofList]
  unfold takeDate
  rw [htext, bind_of_eq (takeNumber_paddedDigits (by omega) _),
    bind_of_eq (takeOne_cons (by decide) _), bind_of_eq (takeNumber_paddedDigits (by omega) _),
    bind_of_eq (takeOne_cons (by decide) _), bind_of_eq (takeNumber_paddedDigits (by omega) _)]
  simp only [hcast, d.exists_, dite_true]
  rfl

theorem takeTime_text (t : TimeOfDay) {c : Char} (hdigit : c.isDigit = false) (hpoint : c ≠ '.')
    (rest : List Char) :
    takeTime (paddedDigits 2 t.hour ++ ':' :: (paddedDigits 2 t.minute ++
      ':' :: (paddedDigits 2 t.shownSecond ++ ((fractionText t.shownNanosecond).toList ++
        c :: rest)))) = .ok (t.settled, c :: rest) := by
  have htime := isTime_iff.mp t.exists_
  have hshown := t.shown_lt
  unfold takeTime
  rw [bind_of_eq (takeNumber_paddedDigits (by omega) _), bind_of_eq (takeOne_cons (by decide) _),
    bind_of_eq (takeNumber_paddedDigits (by omega) _), bind_of_eq (takeOne_cons (by decide) _),
    bind_of_eq (takeNumber_paddedDigits hshown.1 _),
    bind_of_eq (takeFraction_text hshown.2 hdigit hpoint _), t.ofShown?_shown]
  rfl

/-! ## Texts -/

theorem toList_text (t : Timestamp) : t.text.toList =
    (yearText t.date.year).toList ++ '-' :: (paddedDigits 2 t.date.month ++
      '-' :: (paddedDigits 2 t.date.day ++ 'T' :: (paddedDigits 2 t.time.hour ++
        ':' :: (paddedDigits 2 t.time.minute ++ ':' :: (paddedDigits 2 t.time.shownSecond ++
          ((fractionText t.time.shownNanosecond).toList ++
            '+' :: ['0', '0', ':', '0', '0'])))))) := by
  unfold text padded
  simp only [String.toList_append, String.toList_ofList, List.append_assoc]
  rfl

theorem four_le_length_yearText (year : Int) : 4 ≤ (yearText year).toList.length := by
  unfold yearText padded
  split
  · rw [String.toList_ofList, length_paddedDigits]
  · rw [String.toList_append, String.toList_ofList, List.length_append, List.length_leftpad]
    omega

theorem nineteen_le_utf8ByteSize_text (t : Timestamp) : 19 ≤ t.text.utf8ByteSize := by
  have hyear := four_le_length_yearText t.date.year
  refine Nat.le_trans ?_ (Text.length_le_utf8ByteSize t.text)
  rw [toList_text]
  simp only [List.length_append, List.length_cons, List.length_nil, length_paddedDigits]
  omega

theorem read_eq_map_takeAll (t : Timestamp) :
    read t.text = (takeAll t.text.toList).map (·.1) := by
  have hsize := nineteen_le_utf8ByteSize_text t
  unfold read
  rw [if_neg (by omega)]
  rfl

/-- The text of a timestamp is read as this point in time if its year has four digits. -/
theorem read_text {t : Timestamp} (h : t.FourDigitYear) : read t.text = .ok t.settled := by
  have hoffset : takeOffset ('+' :: ['0', '0', ':', '0', '0']) = .ok (0, []) := rfl
  have hall : takeAll t.text.toList = .ok (t.settled, []) := by
    unfold takeAll
    rw [toList_text, bind_of_eq (takeDate_text h _), bind_of_eq (takeOne_cons (by decide) _),
      bind_of_eq (takeTime_text t.time (by decide) (by decide) _), bind_of_eq hoffset]
    show Except.ok (ofShown t.settled 0, []) = _
    rw [ofShown_zero]
  rw [read_eq_map_takeAll, hall]
  rfl

/-- The text of any other timestamp is not read at all. -/
theorem read_text_of_not {t : Timestamp} (h : ¬ t.FourDigitYear) :
    read t.text = .error .invalid := by
  have hsign : ∃ c rest, t.text.toList = c :: rest ∧ c.isDigit = false := by
    rw [toList_text]
    have hyear : ¬ (0 ≤ t.date.year ∧ t.date.year < 10000) := h
    unfold yearText
    rw [if_neg hyear]
    by_cases hnegative : t.date.year < 0
    · rw [if_pos hnegative, String.toList_append]
      exact ⟨'-', _, rfl, by decide⟩
    · rw [if_neg hnegative, String.toList_append]
      exact ⟨'+', _, rfl, by decide⟩
  obtain ⟨c, rest, htext, hc⟩ := hsign
  rw [read_eq_map_takeAll, htext]
  unfold takeAll takeDate
  rw [bind_of_error (bind_of_error (takeNumber_of_not hc 0 3 rest))]
  rfl

/-- What the text of a timestamp is read as, if it is read. -/
theorem eq_settled_of_read_text {t t' : Timestamp} (h : read t.text = .ok t') :
    t.FourDigitYear ∧ t' = t.settled := by
  by_cases hyear : t.FourDigitYear
  · rw [read_text hyear] at h
    exact ⟨hyear, (Except.ok.inj h).symm⟩
  · rw [read_text_of_not hyear] at h
    cases h

end Autopilot.Timestamp
