import StageChain.Preview.Orchestrator
import StageChain.Proofs.Double.Nearest
import StageChain.Proofs.Entries
import StageChain.Proofs.Text.Numerals
import StageChain.Settings

/-!
# Which settings are loaded

Settings are usable if the page size is from one to a thousand and the time limit is positive, and
where they cannot be loaded the variable at fault is named, `Settings.Loads`. The time limit is
refused only if it is at most zero, and not-a-number is not. So what is loaded is usable exactly if
no such time limit comes with a page size that can be read: `Settings.loads_iff`.

Of what reads the file of defaults only the documented precedence is used, `Settings.Completes`: the
variables that are set are kept, and the file fills in the others.
-/

namespace StageChain

/-! ## Positive doubles -/

namespace Double

variable {x : Double} {text : String} {chars word : List Char}

/-- The number is greater than zero. -/
inductive IsPositive : Double → Prop where
  | infinite : IsPositive (infinite false)
  | finite (m : Magnitude) (h : 0 < m.units) : IsPositive (finite false m)

theorem not_isPositive_nan : ¬ IsPositive nan := nofun

/-- What is not at most zero is positive, or it is no number. -/
theorem isAtMostZero_eq_false_iff : x.isAtMostZero = false ↔ x = nan ∨ x.IsPositive := by
  have hunits : ∀ m : Magnitude, 0 < m.units ↔ m.significand ≠ 0 := fun m => by
    rw [Magnitude.units_eq, Nat.mul_pos_iff_of_pos_right (Nat.pow_pos (by decide))]
    exact Nat.pos_iff_ne_zero
  constructor
  · intro h
    cases x with
    | nan => exact .inl rfl
    | infinite negative =>
        obtain rfl : negative = false := h
        exact .inr .infinite
    | finite negative m =>
        obtain ⟨rfl, hm⟩ : negative = false ∧ m.significand ≠ 0 := by
          simpa [isAtMostZero] using h
        exact .inr (.finite m ((hunits m).2 hm))
  · rintro (rfl | _ | ⟨m, hm⟩)
    · rfl
    · rfl
    · simpa [isAtMostZero] using (hunits m).1 hm

/-- The text is the word for not-a-number in letters of any case, between blanks, with a sign or
without. -/
def WritesNan (text : String) : Prop :=
  ∃ sign negative word, Text.plainForm text = some (sign ++ word) ∧ Text.SignForm sign negative ∧
    word.map Char.toLower = "nan".toList

theorem ofNumeral_ne_nan (numeral : Text.DecimalNumeral) : ofNumeral numeral ≠ nan := by
  intro hnan
  have hrounds := rounds_ofNumeral numeral
  rw [hnan] at hrounds
  cases hrounds

theorem ofWord?_eq_nan_iff {negative : Bool} :
    ofWord? negative word = some nan ↔ word.map Char.toLower = "nan".toList := by
  simp only [ofWord?]
  constructor
  · intro h
    split at h
    · cases h
    split at h
    · assumption
    · cases h
  · intro h
    rw [h]
    rfl

theorem eq_of_toLower {c : Char} (h : c.toLower = 'n') : c = 'n' ∨ c = 'N' := by
  unfold Char.toLower at h
  split at h
  · refine .inr (Char.ext ?_)
    have hval := congrArg (fun lowered : Char => lowered.val - ('a'.val - 'A'.val)) h
    simp only [UInt32.add_sub_cancel] at hval
    calc c.val = 'n'.val - ('a'.val - 'A'.val) := hval
      _ = 'N'.val := by decide
  · exact .inl h

/-- The word for not-a-number starts with neither a sign nor a digit nor a point. -/
theorem head_of_word (h : word.map Char.toLower = "nan".toList) :
    ∀ c, word.head? = some c →
      Text.isAsciiDigit c = false ∧ c ≠ '.' ∧ c ≠ '-' ∧ c ≠ '+' := by
  intro c hc
  have hhead := congrArg List.head? h
  rw [List.head?_map, hc] at hhead
  rcases eq_of_toLower (Option.some.inj hhead) with rfl | rfl <;> decide

/-- Before the word for not-a-number there is nothing to be read as a numeral. -/
theorem scanDecimal_of_word {sign : List Char} {negative : Bool}
    (hsign : Text.SignForm sign negative) (h : word.map Char.toLower = "nan".toList) :
    Text.scanDecimal (sign ++ word) = none := by
  have hhead := head_of_word h
  have hsplit := Text.splitSign_append hsign fun c hc => (hhead c hc).2.2
  have hdrop : word.dropWhile Text.isAsciiDigit = word :=
    Text.dropWhile_eq_self_of_head fun c hc => (hhead c hc).1
  have htake : word.takeWhile Text.isAsciiDigit = [] := by
    have hlength := congrArg List.length (List.takeWhile_append_dropWhile (p := Text.isAsciiDigit)
      (l := word))
    rw [hdrop, List.length_append] at hlength
    exact List.eq_nil_of_length_eq_zero (by omega)
  have hpoint := Text.fractionPart_of_head fun c hc => (hhead c hc).2.1
  simp only [Text.scanDecimal, hsplit, htake, hdrop, hpoint, List.isEmpty_nil, Bool.and_self,
    if_true]

/-- Not-a-number is read from the word for it and from nothing else. -/
theorem ofText?_eq_nan_iff : ofText? text = some nan ↔ WritesNan text := by
  rw [ofText?, Option.bind_eq_some_iff]
  constructor
  · rintro ⟨chars, hplain, hread⟩
    split at hread
    · exact absurd (Option.some.inj hread) (ofNumeral_ne_nan _)
    · obtain ⟨sign, hsign, hchars⟩ := Text.exists_signForm chars
      exact ⟨sign, _, _, hchars ▸ hplain, hsign, ofWord?_eq_nan_iff.1 hread⟩
  · rintro ⟨sign, negative, word, hplain, hsign, hword⟩
    have hsplit := Text.splitSign_append hsign fun c hc => (head_of_word hword c hc).2.2
    refine ⟨_, hplain, ?_⟩
    simp only [scanDecimal_of_word hsign hword, hsplit]
    exact ofWord?_eq_nan_iff.2 hword

end Double

/-! ## Variables -/

namespace Settings

/-- The variables that hold numbers. -/
inductive NumericVariable where
  | timeout
  | pageSize

/-- The name of a variable. -/
def NumericVariable.name : NumericVariable → String
  | timeout => timeoutName
  | pageSize => pageSizeName

variable {environment : Entries String} {settings : Settings} {default : Double} {raw : String}

/-- The variable is set to what it cannot be: a time limit to no positive number, or a page size to
no integer. -/
inductive Offends (environment : Entries String) : NumericVariable → Prop where
  | timeout (raw : String) (hset : filled? environment timeoutName = some raw)
      (hread : ∀ x, Double.ofText? (Text.trim raw) = some x → ¬ x.IsPositive) :
      Offends environment .timeout
  | pageSize (raw : String) (hset : filled? environment pageSizeName = some raw)
      (hread : ∀ n, Text.liberalInt? (Text.trim raw) ≠ some n) : Offends environment .pageSize

/-- The time limit is set to the word for not-a-number. -/
def HasNanTimeout (environment : Entries String) : Prop :=
  ∃ raw, filled? environment timeoutName = some raw ∧ Double.WritesNan (Text.trim raw)

/-- The page size is from one to a thousand, and the time limit is positive, also that of an
orchestrator that is made with them. -/
structure IsUsable (settings : Settings) : Prop where
  least : 1 ≤ settings.pageSize
  most : settings.pageSize ≤ 1000
  positive : settings.timeout.IsPositive
  created : ∀ collection source, ∃ orchestrator,
    Orchestrator.create collection settings.pageSize settings.timeout source = .ok orchestrator ∧
      orchestrator.timeout.IsPositive

/-- Settings are usable, or a variable that offends is named. -/
inductive Loads (environment : Entries String) : Except SettingsFault Settings → Prop where
  | refused (fault : SettingsFault) (culprit : NumericVariable) (rest : String)
      (hoffends : Offends environment culprit) (hmessage : fault.message = culprit.name ++ rest) :
      Loads environment (.error fault)
  | usable (settings : Settings) (husable : settings.IsUsable) : Loads environment (.ok settings)

/-! ## Time limits and page sizes -/

/-- What becomes of the time limit. -/
inductive ReadsTimeout (environment : Entries String) : Except SettingsFault Double → Prop where
  | positive (x : Double) (hpositive : x.IsPositive) (hnumber : ¬ HasNanTimeout environment) :
      ReadsTimeout environment (.ok x)
  | nan (hnan : HasNanTimeout environment) : ReadsTimeout environment (.ok .nan)
  | atMostZero (x : Double) (hzero : x.isAtMostZero = true)
      (hnumber : ¬ HasNanTimeout environment) (hoffends : Offends environment .timeout) :
      ReadsTimeout environment (.ok x)
  | noNumber (raw : String) (hnumber : ¬ HasNanTimeout environment)
      (hoffends : Offends environment .timeout) :
      ReadsTimeout environment (.error (.notNumber timeoutName raw))

theorem hasNanTimeout_iff (hset : filled? environment timeoutName = some raw) :
    HasNanTimeout environment ↔ Double.ofText? (Text.trim raw) = some .nan := by
  rw [HasNanTimeout, hset, Double.ofText?_eq_nan_iff]
  constructor
  · rintro ⟨other, hsame, hnan⟩
    cases hsame
    exact hnan
  · exact fun hnan => ⟨raw, rfl, hnan⟩

theorem readsTimeout_doubleOf (environment : Entries String) (hdefault : default.IsPositive) :
    ReadsTimeout environment (doubleOf environment timeoutName default) := by
  unfold doubleOf
  cases hset : filled? environment timeoutName with
  | none =>
      refine .positive default hdefault ?_
      rintro ⟨raw, hraw, -⟩
      cases hset.symm.trans hraw
  | some raw =>
      have hnan := hasNanTimeout_iff hset
      simp only
      cases hread : Double.ofText? (Text.trim raw) with
      | none =>
          refine .noNumber raw ?_ (.timeout raw hset fun x hx => ?_)
          · rw [hnan, hread]
            exact nofun
          · cases hread.symm.trans hx
      | some x =>
          rw [hread, Option.some.injEq] at hnan
          cases hzero : x.isAtMostZero with
          | false =>
              rcases Double.isAtMostZero_eq_false_iff.1 hzero with rfl | hpositive
              · exact .nan (hnan.2 rfl)
              · refine .positive x hpositive fun h => ?_
                exact Double.not_isPositive_nan (hnan.1 h ▸ hpositive)
          | true =>
              have hnot : ¬ (x = .nan ∨ x.IsPositive) := by
                rw [← Double.isAtMostZero_eq_false_iff, hzero]
                exact nofun
              refine .atMostZero x hzero (fun h => hnot (.inl (hnan.1 h)))
                (.timeout raw hset fun y hy hpositive => ?_)
              cases hread.symm.trans hy
              exact hnot (.inr hpositive)

/-- What becomes of the page size. -/
inductive ReadsPageSize (environment : Entries String) : Except SettingsFault Int → Prop where
  | integer (n : Int) (hright : ¬ Offends environment .pageSize) : ReadsPageSize environment (.ok n)
  | noInteger (raw : String) (hoffends : Offends environment .pageSize) :
      ReadsPageSize environment (.error (.notInteger pageSizeName raw))

theorem readsPageSize_intOf (environment : Entries String) (default : Int) :
    ReadsPageSize environment (intOf environment pageSizeName default) := by
  unfold intOf
  cases hset : filled? environment pageSizeName with
  | none =>
      refine .integer default fun hoffends => ?_
      cases hoffends with
      | pageSize raw hraw => cases hset.symm.trans hraw
  | some raw =>
      simp only
      cases hread : Text.liberalInt? (Text.trim raw) with
      | none =>
          refine .noInteger raw (.pageSize raw hset fun n hn => ?_)
          cases hread.symm.trans hn
      | some n =>
          refine .integer n fun hoffends => ?_
          cases hoffends with
          | pageSize other hother hnone =>
              cases hset.symm.trans hother
              exact hnone n hread

/-! ## Loading -/

/-- The settings of an environment with two numbers that are read. -/
def withNumbers (environment : Entries String) (timeout : Double) (pageSize : Int) : Settings where
  uri := textOf environment "MONGODB_URI" "mongodb://localhost:27017"
  database := textOf environment "MONGODB_DATABASE" ""
  collection := textOf environment "MONGODB_COLLECTION" ""
  pageSize := Paging.clampPageSize pageSize
  timeout := timeout
  logLevel := Text.upper (textOf environment "AGG_GRAPH_LOG_LEVEL" "INFO")

theorem load_eq (environment : Entries String) :
    load environment = (doubleOf environment timeoutName (.ofInt 30)).bind fun timeout =>
      if timeout.isAtMostZero then .error (.notPositive timeoutName timeout)
      else (intOf environment pageSizeName 20).bind fun pageSize =>
        .ok (withNumbers environment timeout pageSize) := rfl

/-- A page size is kept between one and a thousand. -/
theorem clampPageSize_bounds (n : Int) :
    1 ≤ Paging.clampPageSize n ∧ Paging.clampPageSize n ≤ 1000 := by
  unfold Paging.clampPageSize Paging.maxPageSize
  omega

/-- An orchestrator is made with a time limit that is not at most zero. -/
theorem exists_created {timeout : Double} (h : timeout.isAtMostZero = false) (collection : String)
    (pageSize : Int) (source : Source) : ∃ orchestrator,
      Orchestrator.create collection pageSize timeout source = .ok orchestrator ∧
        orchestrator.timeout = timeout := by
  refine ⟨⟨collection, pageSize, timeout, source, [], 0, none, [], none, [], []⟩, ?_, rfl⟩
  rw [Orchestrator.create, h]
  rfl

theorem isUsable_withNumbers {timeout : Double} (h : timeout.IsPositive) (pageSize : Int) :
    (withNumbers environment timeout pageSize).IsUsable where
  least := (clampPageSize_bounds pageSize).1
  most := (clampPageSize_bounds pageSize).2
  positive := h
  created := by
    intro collection source
    obtain ⟨orchestrator, hcreate, htimeout⟩ := exists_created
      (Double.isAtMostZero_eq_false_iff.2 (.inr h)) collection
      (withNumbers environment timeout pageSize).pageSize source
    exact ⟨orchestrator, hcreate, htimeout ▸ h⟩

/-- A time limit that is not at most zero leaves the page size to decide. -/
theorem load_of_timeout {timeout : Double}
    (hread : doubleOf environment timeoutName (.ofInt 30) = .ok timeout)
    (hzero : timeout.isAtMostZero = false) :
    load environment = (intOf environment pageSizeName 20).bind fun pageSize =>
      .ok (withNumbers environment timeout pageSize) := by
  rw [load_eq, hread]
  simp only [Except.bind, hzero, Bool.false_eq_true, if_false]

theorem isPositive_ofInt_thirty : (Double.ofInt 30).IsPositive := by
  have hzero : (Double.ofInt 30).isAtMostZero = false := by decide +kernel
  have hnumber : Double.ofInt 30 ≠ .nan := by decide +kernel
  exact (Double.isAtMostZero_eq_false_iff.1 hzero).resolve_left hnumber

/-- What can be read as settings is usable, or a variable is named, unless the time limit is
not-a-number. -/
theorem loads_of_number (h : ¬ HasNanTimeout environment) :
    Loads environment (load environment) := by
  have htimeout := readsTimeout_doubleOf environment isPositive_ofInt_thirty
  generalize hread : doubleOf environment timeoutName (.ofInt 30) = result at htimeout
  cases htimeout with
  | positive x hpositive =>
      have hpageSize := readsPageSize_intOf environment 20
      rw [load_of_timeout hread (Double.isAtMostZero_eq_false_iff.2 (.inr hpositive))]
      generalize intOf environment pageSizeName 20 = result at hpageSize
      cases hpageSize with
      | integer n => exact .usable _ (isUsable_withNumbers hpositive n)
      | noInteger raw hoffends => exact .refused _ .pageSize _ hoffends (String.append_assoc ..)
  | nan hnan => exact absurd hnan h
  | atMostZero x hzero _ hoffends =>
      have hload : load environment = .error (.notPositive timeoutName x) := by
        rw [load_eq, hread]
        simp only [Except.bind, hzero, if_true]
      rw [hload]
      exact .refused _ .timeout _ hoffends (String.append_assoc ..)
  | noNumber raw _ hoffends =>
      have hload : load environment = .error (.notNumber timeoutName raw) := by
        rw [load_eq, hread]
        rfl
      rw [hload]
      exact .refused _ .timeout _ hoffends (String.append_assoc ..)

/-- A time limit that is not-a-number is taken as it is, unless the page size offends. -/
theorem load_of_nan (h : HasNanTimeout environment) :
    (∃ fault rest, load environment = .error fault ∧ Offends environment .pageSize ∧
      fault.message = pageSizeName ++ rest) ∨
    ∃ n, load environment = .ok (withNumbers environment .nan n) ∧
      ¬ Offends environment .pageSize := by
  have htimeout := readsTimeout_doubleOf environment isPositive_ofInt_thirty
  generalize hread : doubleOf environment timeoutName (.ofInt 30) = result at htimeout
  cases htimeout with
  | nan =>
      have hpageSize := readsPageSize_intOf environment 20
      rw [load_of_timeout hread rfl]
      generalize intOf environment pageSizeName 20 = result at hpageSize
      cases hpageSize with
      | integer n hright => exact .inr ⟨n, rfl, hright⟩
      | noInteger raw hoffends =>
          exact .inl ⟨_, _, rfl, hoffends, String.append_assoc ..⟩
  | positive _ _ hnumber | atMostZero _ _ hnumber | noNumber _ hnumber => exact absurd h hnumber

/-! ## A file of defaults -/

/-- The variables of an environment, and behind them those of a file of defaults. What the file
yields may depend on the environment, whose variables its values can refer to. -/
def withDefaults (defaults : Entries String → Entries String) (environment : Entries String) :
    Entries String :=
  environment ++ defaults environment

/-- The documented precedence of what completes an environment: a variable that is set keeps its
value, also an empty one, and any other variable has the value that the file yields, if any. -/
def Completes (complete defaults : Entries String → Entries String) : Prop :=
  ∀ environment name,
    Entries.get? name (complete environment) =
      (Entries.get? name environment).or (Entries.get? name (defaults environment))

theorem load_congr {other : Entries String}
    (h : ∀ name, Entries.get? name environment = Entries.get? name other) :
    load environment = load other := by
  simp only [load, doubleOf, intOf, filled?, textOf, h]

theorem loadWith_eq {complete defaults : Entries String → Entries String}
    (hcomplete : Completes complete defaults) (environment : Entries String) :
    loadWith complete environment = load (withDefaults defaults environment) :=
  load_congr fun name => by
    rw [hcomplete environment name, withDefaults, Entries.get?_append]

/-- What is loaded from an environment and a file of defaults is usable, or a variable is named that
is set to what it cannot be. The exception is a time limit that is not-a-number with a page size
that can be read: it is loaded, and an orchestrator is made with it. -/
theorem loads_iff {complete defaults : Entries String → Entries String}
    (hcomplete : Completes complete defaults) (environment : Entries String) :
    (Loads (withDefaults defaults environment) (loadWith complete environment) ↔
      (HasNanTimeout (withDefaults defaults environment) →
        Offends (withDefaults defaults environment) .pageSize)) ∧
    (HasNanTimeout (withDefaults defaults environment) →
      ¬ Offends (withDefaults defaults environment) .pageSize →
        ∃ settings, loadWith complete environment = .ok settings ∧
          1 ≤ settings.pageSize ∧ settings.pageSize ≤ 1000 ∧ settings.timeout = .nan ∧
          ∀ collection source, ∃ orchestrator,
            Orchestrator.create collection settings.pageSize settings.timeout source =
              .ok orchestrator ∧ orchestrator.timeout = .nan) := by
  rw [loadWith_eq hcomplete]
  generalize withDefaults defaults environment = environment
  constructor
  · by_cases hnan : HasNanTimeout environment
    · rcases load_of_nan hnan with ⟨fault, rest, hload, hoffends, hmessage⟩ | ⟨n, hload, hright⟩
      · rw [hload]
        exact iff_of_true (.refused fault .pageSize rest hoffends hmessage) fun _ => hoffends
      · rw [hload]
        refine iff_of_false (fun hloads => ?_) fun h => hright (h hnan)
        cases hloads with
        | usable _ husable => exact Double.not_isPositive_nan husable.positive
    · exact iff_of_true (loads_of_number hnan) fun h => absurd h hnan
  · intro hnan hright
    rcases load_of_nan hnan with ⟨fault, rest, hload, hoffends, hmessage⟩ | ⟨n, hload, -⟩
    · exact absurd hoffends hright
    · obtain ⟨hleast, hmost⟩ := clampPageSize_bounds n
      exact ⟨_, hload, hleast, hmost, rfl, fun collection source =>
        exists_created rfl collection _ source⟩

/-- A time limit that is not-a-number, and nothing else. -/
def nanTimeout : Entries String := [(timeoutName, "nan")]

/-- A page size that can be read, and nothing else. -/
def fivePerPage : Entries String := [(pageSizeName, "5")]

/-- With the page size in the environment and the time limit in the file, the time limit of the file
is loaded though it is not-a-number. -/
theorem loads_nanDefault :
    Completes (· ++ nanTimeout) (fun _ => nanTimeout) ∧
      ¬ Loads (withDefaults (fun _ => nanTimeout) fivePerPage)
        (loadWith (· ++ nanTimeout) fivePerPage) ∧
      ∃ settings, loadWith (· ++ nanTimeout) fivePerPage = .ok settings ∧
        settings.pageSize = 5 ∧ settings.timeout = .nan := by
  have hcomplete : Completes (· ++ nanTimeout) (fun _ => nanTimeout) :=
    fun environment name => Entries.get?_append name environment nanTimeout
  have hnan : HasNanTimeout (withDefaults (fun _ => nanTimeout) fivePerPage) :=
    ⟨"nan", by decide +kernel, [], false, "nan".toList, by decide +kernel, .none,
      by decide +kernel⟩
  have hright : ¬ Offends (withDefaults (fun _ => nanTimeout) fivePerPage) .pageSize := by
    rintro (_ | ⟨raw, hset, hread⟩)
    obtain rfl : raw = "5" := by
      have hfive : filled? (withDefaults (fun _ => nanTimeout) fivePerPage) pageSizeName =
          some "5" := by decide +kernel
      exact Option.some.inj (hset.symm.trans hfive)
    exact hread 5 (by decide +kernel)
  obtain ⟨hloads, hloaded⟩ := loads_iff hcomplete fivePerPage
  obtain ⟨settings, hload, -, -, htimeout, -⟩ := hloaded hnan hright
  refine ⟨hcomplete, fun h => hright (hloads.1 h hnan), settings, hload, ?_, htimeout⟩
  have hfive : loadWith (· ++ nanTimeout) fivePerPage =
      .ok ⟨"mongodb://localhost:27017", "", "", 5, .nan, "INFO"⟩ := by decide +kernel
  cases hload.symm.trans hfive
  rfl

/-- The settings of `nanTimeout` are loaded, though their time limit is not positive. -/
theorem not_loads_nanTimeout :
    loadWith id nanTimeout = .ok ⟨"mongodb://localhost:27017", "", "", 20, .nan, "INFO"⟩ ∧
      ¬ Loads nanTimeout (loadWith id nanTimeout) := by
  have hload : loadWith id nanTimeout =
      .ok ⟨"mongodb://localhost:27017", "", "", 20, .nan, "INFO"⟩ := by decide +kernel
  refine ⟨hload, fun hloads => ?_⟩
  rw [hload] at hloads
  cases hloads with
  | usable _ husable => exact Double.not_isPositive_nan husable.positive

end Settings

end StageChain
