import SlurmTracer.Core.Endpoint
import SlurmTracer.Lib.Decimal
import SlurmTracer.Lib.Search

/-!
The endpoint setting and its grammar. `parse_http_endpoint` takes exactly the
strings of the form `http://host[:port][/path]` apart, and an endpoint that is
printed is read back (`parses_grammar`).
-/
namespace SlurmTracer.EndpointGrammar
open SlurmTracer.Core Lib Lib.Decimal Lib.Search

/-! ### The grammar -/

structure Host (host : Bytes) : Prop where
  filled : host ≠ []
  noSlash : 47 ∉ host
  noColon : 58 ∉ host

/-- What stands for the port. -/
inductive PortText : Bytes → UInt16 → Prop
  | missing : PortText [] 80
  | given {digits : Bytes} {port : UInt16} (filled : digits ≠ []) (all : AllDigits digits)
      (value : digitsValue digits = port.toNat) (real : port ≠ 0) : PortText (58 :: digits) port

/-- What stands for the path. -/
inductive PathText : Bytes → Bytes → Prop
  | missing : PathText [] [47]
  | given (rest : Bytes) : PathText (47 :: rest) (47 :: rest)

/-- The string is `http://host[:port][/path]` and stands for this endpoint. -/
def Denotes (s : Bytes) (e : HttpEndpoint) : Prop :=
  ∃ port path, s = endpointPrefix ++ (e.host ++ port ++ path) ∧ Host e.host ∧ PortText port e.port ∧
    PathText path e.path

/-- An endpoint with everything spelled out. -/
def print (e : HttpEndpoint) : Bytes := endpointPrefix ++ (e.host ++ 58 :: toDecimal e.port.toNat ++ e.path)

/-- A host, a port and a path that starts with a slash. -/
structure Valid (e : HttpEndpoint) : Prop where
  host : Host e.host
  port : e.port ≠ 0
  path : ∃ rest, e.path = 47 :: rest

structure ParsesGrammar : Prop where
  accepts : ∀ s e, parseHttpEndpoint s = some e ↔ Denotes s e
  prints : ∀ e, Valid e → parseHttpEndpoint (print e) = some e

/-! ### Ports -/

theorem parse_port_iff {text : Bytes} {port : UInt16} :
    parsePort text = some port ↔ text ≠ [] ∧ AllDigits text ∧ digitsValue text = port.toNat ∧ port ≠ 0 := by
  have digits : text.any (fun c => !isDigit c) = true ↔ ¬ AllDigits text := by
    simp [AllDigits]
  unfold parsePort
  by_cases empty : text = []
  · simp [empty]
  · rw [if_neg empty]
    by_cases all : AllDigits text
    · rw [if_neg (digits.not.mpr (not_not.mpr all))]
      by_cases range : digitsValue text = 0 ∨ digitsValue text > 65535
      · have none : ¬ (digitsValue text = port.toNat ∧ port ≠ 0) := by
          rintro ⟨value, real⟩
          have bound := port.toNat_lt
          have positive : port.toNat ≠ 0 := fun zero => real (UInt16.toNat_inj.mp zero)
          omega
        by_cases fits : digitsValue text < 2 ^ 64
        · rw [strtoul, if_pos fits]
          simp [range, none]
        · rw [strtoul, if_neg fits]
          simp [none]
      · rw [strtoul, if_pos (by omega)]
        simp only [if_neg range, Option.some.injEq, empty, all, ne_eq, not_false_eq_true, true_and]
        have back : (UInt16.ofNat (digitsValue text)).toNat = digitsValue text := by
          rw [UInt16.toNat_ofNat']
          omega
        constructor
        · rintro rfl
          refine ⟨back.symm, fun zero => ?_⟩
          rw [zero] at back
          exact range (Or.inl back.symm)
        · rintro ⟨value, -⟩
          rw [value, UInt16.ofNat_toNat]
    · rw [if_pos (digits.mpr all)]
      simp [all]

/-! ### Both directions -/

/-- The rest after the prefix, cut at its first slash. -/
private theorem parse_rest (rest : Bytes) : parseHttpEndpoint (endpointPrefix ++ rest) =
    if rest.takeWhile (· ≠ 47) = [] then none
    else
      let path := match rest.dropWhile (· ≠ 47) with
        | [] => [47]
        | path => path
      match (rest.takeWhile (· ≠ 47)).dropWhile (· ≠ 58) with
      | [] => some { host := rest.takeWhile (· ≠ 47), path }
      | _ :: portStr =>
        if (rest.takeWhile (· ≠ 47)).takeWhile (· ≠ 58) = [] then none
        else (parsePort portStr).map fun port =>
          { host := (rest.takeWhile (· ≠ 47)).takeWhile (· ≠ 58), port, path } := by
  rw [parseHttpEndpoint, List.take_left, if_neg (not_not.mpr rfl), List.drop_left]
  cases rest with
  | nil => rfl
  | cons c rest => rfl

/-- What is parsed is of the form. -/
theorem denotes_of_parse {s : Bytes} {e : HttpEndpoint} (parsed : parseHttpEndpoint s = some e) : Denotes s e := by
  have begins : s = endpointPrefix ++ s.drop endpointPrefix.length := by
    by_contra other
    have start : s.take endpointPrefix.length ≠ endpointPrefix := by
      intro same
      apply other
      conv_lhs => rw [← List.take_append_drop endpointPrefix.length s, same]
    rw [parseHttpEndpoint, if_pos start] at parsed
    cases parsed
  generalize s.drop endpointPrefix.length = rest at begins
  subst begins
  -- The authority and the path, whether there is a slash or not.
  have cut : ∃ authority pathText path, rest = authority ++ pathText ∧ (47 : UInt8) ∉ authority ∧
      PathText pathText path ∧ rest.takeWhile (· ≠ 47) = authority ∧
      (match rest.dropWhile (· ≠ 47) with
        | [] => [47]
        | path => path) = path := by
    rcases until_cases 47 rest with free | ⟨authority, tail, rfl, free⟩
    · obtain ⟨taken, left⟩ := take_all free
      exact ⟨rest, [], [47], (List.append_nil _).symm, free, .missing, taken, by rw [left]⟩
    · obtain ⟨taken, left⟩ := take_until free tail
      exact ⟨authority, 47 :: tail, 47 :: tail, rfl, free, .given tail, taken, by rw [left]⟩
  obtain ⟨authority, pathText, path, rfl, noSlash, isPath, taken, left⟩ := cut
  rw [parse_rest, taken, left] at parsed
  split at parsed
  · cases parsed
  · rename_i filled
    rcases until_cases 58 authority with free | ⟨host, portStr, rfl, free⟩
    · rw [(take_all free).2] at parsed
      cases parsed
      exact ⟨[], pathText, by rw [List.append_nil], ⟨filled, noSlash, free⟩, .missing, isPath⟩
    · obtain ⟨takenHost, leftPort⟩ := take_until free portStr
      rw [leftPort, takenHost] at parsed
      dsimp only at parsed
      split at parsed
      · cases parsed
      · rename_i named
        obtain ⟨port, parsedPort, rfl⟩ := Option.map_eq_some_iff.mp parsed
        obtain ⟨some', all, value, real⟩ := parse_port_iff.mp parsedPort
        exact ⟨58 :: portStr, pathText, rfl, ⟨named, fun member => noSlash (List.mem_append_left _ member), free⟩,
          .given some' all value real, isPath⟩

/-- What is of the form is parsed. -/
theorem parse_of_denotes {s : Bytes} {e : HttpEndpoint} (denotes : Denotes s e) : parseHttpEndpoint s = some e := by
  obtain ⟨host, port, path⟩ := e
  obtain ⟨portText, pathText, rfl, ⟨filled, noSlash, noColon⟩, isPort, isPath⟩ := denotes
  dsimp only at filled noSlash noColon isPort isPath ⊢
  have clean : (47 : UInt8) ∉ host ++ portText := by
    intro member
    rcases List.mem_append.mp member with inHost | inPort
    · exact noSlash inHost
    · cases isPort with
      | missing => cases inPort
      | given _ all _ _ =>
        rcases List.mem_cons.mp inPort with colon | digit
        · exact absurd colon (by decide)
        · exact absurd (all 47 digit) (by decide)
  have cut : (host ++ portText ++ pathText).takeWhile (· ≠ 47) = host ++ portText ∧
      (match (host ++ portText ++ pathText).dropWhile (· ≠ 47) with
        | [] => [47]
        | path => path) = path := by
    cases isPath with
    | missing =>
      obtain ⟨taken, left⟩ := take_all clean
      rw [List.append_nil]
      exact ⟨taken, by rw [left]⟩
    | given rest =>
      obtain ⟨taken, left⟩ := take_until clean rest
      exact ⟨taken, by rw [left]⟩
  rw [parse_rest, cut.1, cut.2, if_neg (by simp [filled])]
  cases isPort with
  | missing =>
    rw [List.append_nil, (take_all noColon).2]
  | given some' all value real =>
    rename_i digits
    obtain ⟨takenHost, leftPort⟩ := take_until noColon digits
    rw [leftPort, takenHost]
    dsimp only
    rw [if_neg filled, parse_port_iff.mpr ⟨some', all, value, real⟩]
    rfl

theorem print_denotes {e : HttpEndpoint} (valid : Valid e) : Denotes (print e) e := by
  obtain ⟨rest, starts⟩ := valid.path
  refine ⟨58 :: toDecimal e.port.toNat, e.path, by rw [print], valid.host, ?_, ?_⟩
  · exact .given (to_decimal_filled _) (to_decimal_digits _) (digits_value_to_decimal _) valid.port
  · rw [starts]
    exact .given rest

/-- The strings accepted are those of the form, each for what it says, and
printing is undone. -/
theorem parses_grammar : ParsesGrammar where
  accepts := fun _ _ => ⟨denotes_of_parse, parse_of_denotes⟩
  prints := fun _ valid => parse_of_denotes (print_denotes valid)

end SlurmTracer.EndpointGrammar
