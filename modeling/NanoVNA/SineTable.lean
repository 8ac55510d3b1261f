import Mathlib.Analysis.Complex.Trigonometric
import Mathlib.Analysis.Real.Pi.Bounds
import Mathlib.Data.List.GetD
import NanoVNA.Numerals
import NanoVNA.SinCosTable

namespace NanoVNA.SineTable

open NanoVNA.SinCosTable

section Table

/-- `sin_table_qtr` of the larger build, in units of its last digit. -/
def sinTableDigits : List Int :=
  [0, 3067956762966, 6135884649154, 9203754782060, 12271538285720, 15339206284988, 18406729905805,
    21474080275470, 24541228522912, 27608145778966, 30674803176637, 33741171851378, 36807222941359,
    39872927587740, 42938256934941, 46003182130915, 49067674327418, 52131704680283, 55195244349690,
    58258264500436, 61320736302209, 64382630929857, 67443919563664, 70504573389614, 73564563599667,
    76623861392031, 79682437971430, 82740264549376, 85797312344440, 88853552582525, 91908956497133,
    94963495329639, 98017140329561, 101069862754828, 104121633872055, 107172424956809,
    110222207293883, 113270952177564, 116318630911905, 119365214810991, 122410675199216,
    125454983411546, 128498110793793, 131540028702883, 134580708507126, 137620121586486,
    140658239332849, 143695033150294, 146730474455362, 149764534677322, 152797185258443,
    155828397654265, 158858143333861, 161886393780112, 164913120489970, 167938294974731,
    170961888760301, 173983873387464, 177004220412149, 180022901405700, 183039887955141,
    186055151663447, 189068664149806, 192080397049892, 195090322016128, 198098410717954,
    201104634842092, 204108966092817, 207111376192219, 210111836880470, 213110319916091,
    216106797076220, 219101240156870, 222093620973204, 225083911359793, 228072083170886,
    231058108280671, 234041958583543, 237023605994367, 240003022448741, 242980179903264,
    245955050335795, 248927605745720, 251897818154217, 254865659604515, 257831102162159,
    260794117915276, 263754678974831, 266712757474898, 269668325572915, 272621355449949,
    275571819310958, 278519689385053, 281464937925758, 284407537211272, 287347459544730,
    290284677254462, 293219162694259, 296150888243624, 299079826308040, 302005949319228,
    304929229735402, 307849640041535, 310767152749611, 313681740398892, 316593375556166,
    319502030816016, 322407678801070, 325310292162263, 328209843579092, 331106305759876,
    333999651442009, 336889853392220, 339776884406827, 342660717311994, 345541324963989,
    348418680249435, 351292756085567, 354163525420490, 357030961233430, 359895036534988,
    362755724367397, 365612997804774, 368466829953372, 371317193951838, 374164062971458,
    377007410216418, 379847208924051, 382683432365090, 385516053843919, 388345046698826,
    391170384302254, 393992040061048, 396809987416710, 399624199845647, 402434650859418,
    405241314004990, 408044162864979, 410843171057904, 413638312238435, 416429560097637,
    419216888363224, 422000270799800, 424779681209109, 427555093430282, 430326481340083,
    433093818853152, 435857079922255, 438616238538528, 441371268731717, 444122144570429,
    446868840162374, 449611329654607, 452349587233771, 455083587126344, 457813303598877,
    460538710958240, 463259783551860, 465976495767966, 468688822035828, 471396736825998,
    474100214650550, 476799230063322, 479493757660153, 482183772079123, 484869248000791,
    487550160148436, 490226483288291, 492898192229784, 495565261825773, 498227666972782,
    500885382611241, 503538383725718, 506186645345155, 508830142543107, 511468850437970,
    514102744193222, 516731799017650, 519355990165590, 521975292937154, 524589682678469,
    527199134781901, 529803624686295, 532403127877198, 534997619887097, 537587076295645,
    540171472729893, 542750784864516, 545324988422046, 547894059173100, 550457972936605,
    553016705580027, 555570233019602, 558118531220556, 560661576197336, 563199344013834,
    565731810783613, 568258952670131, 570780745886967, 573297166698042, 575808191417845,
    578313796411656, 580813958095765, 583308652937698, 585797857456439, 588281548222645,
    590759701858874, 593232295039800, 595699304492433, 598160706996342, 600616479383869,
    603066598540348, 605511041404326, 607949784967774, 610382806276309, 612810082429410,
    615231590580627, 617647307937804, 620057211763289, 622461279374150, 624859488142386,
    627251815495144, 629638238914927, 632018735939809, 634393284163645, 636761861236284,
    639124444863776, 641481012808583, 643831542889791, 646176012983316, 648514401022112,
    650846684996381, 653172842953777, 655492852999615, 657806693297079, 660114342067420,
    662415777590172, 664710978203345, 666999922303637, 669282588346636, 671558954847018,
    673829000378756, 676092703575316, 678350043129861, 680600997795453, 682845546385248,
    685083667772700, 687315340891759, 689540544737067, 691759258364158, 693971460889654,
    696177131491463, 698376249408973, 700568793943248, 702754744457225, 704934080375905,
    707106781186547, 709272826438866, 711432195745216, 713584868780794, 715730825283819,
    717870045055732, 720002507961382, 722128193929215, 724247082951467, 726359155084346,
    728464390448225, 730562769227828, 732654271672413, 734738878095963, 736816568877370,
    738887324460615, 740951125354959, 743007952135122, 745057785441466, 747100605980180,
    749136394523459, 751165131909686, 753186799043612, 755201376896537, 757208846506484,
    759209188978388, 761202385484262, 763188417263381, 765167265622459, 767138911935820,
    769103337645580, 771060524261814, 773010453362737, 774953106594874, 776888465673232,
    778816512381476, 780737228572094, 782650596166576, 784556597155575, 786455213599086,
    788346427626606, 790230221437310, 792106577300212, 793975477554337, 795836904608883,
    797690840943391, 799537269107905, 801376171723140, 803207531480645, 805031331142964,
    806847553543799, 808656181588175, 810457198252595, 812250586585204, 814036329705948,
    815814410806734, 817584813151584, 819347520076797, 821102514991105, 822849781375826,
    824589302785025, 826321062845663, 828045045257756, 829761233794523, 831469612302545,
    833170164701913, 834862874986380, 836547727223512, 838224705554838, 839893794195999,
    841554977436898, 843208239641845, 844853565249707, 846490938774052, 848120344803297,
    849741768000852, 851355193105265, 852960604930364, 854557988365401, 856147328375194,
    857728610000272, 859301818357008, 860866938637767, 862423956111041, 863972856121587,
    865513624090569, 867046245515693, 868570705971341, 870086991108711, 871595086655951,
    873094978418290, 874586652278176, 876070094195407, 877545290207261, 879012226428633,
    880470889052161, 881921264348355, 883363338665732, 884797098430938, 886222530148881,
    887639620402854, 889048355854665, 890448723244758, 891840709392343, 893224301195515,
    894599485631383, 895966249756185, 897324580705418, 898674465693954, 900015892016160,
    901348847046022, 902673318237259, 903989293123443, 905296759318119, 906595704514915,
    907886116487666, 909167983090522, 910441292258067, 911706032005430, 912962190428398,
    914209755703531, 915448716088268, 916679059921043, 917900775621390, 919113851690058,
    920318276709110, 921514039342042, 922701128333879, 923879532511287, 925049240782678,
    926210242138311, 927362525650401, 928506080473215, 929640895843181, 930766961078984,
    931884265581668, 932992798834739, 934092550404259, 935183509938947, 936265667170278,
    937339011912575, 938403534063108, 939459223602190, 940506070593268, 941544065183021,
    942573197601447, 943593458161960, 944604837261480, 945607325380521, 946600913083284,
    947585591017741, 948561349915730, 949528180593037, 950486073949482, 951435020969008,
    952375012719766, 953306040354194, 954228095109106, 955141168305771, 956045251349996,
    956940335732209, 957826413027533, 958703474895872, 959571513081985, 960430519415566,
    961280485811321, 962121404269042, 962953266873684, 963776065795440, 964589793289813,
    965394441697689, 966190003445413, 966976471044852, 967753837093476, 968522094274417,
    969281235356549, 970031253194544, 970772140728950, 971503890986252, 972226497078936,
    972939952205560, 973644249650812, 974339382785576, 975025345066994, 975702130038529,
    976369731330021, 977028142657754, 977677357824510, 978317370719628, 978948175319062,
    979569765685441, 980182135968117, 980785280403230, 981379193313755, 981963869109555,
    982539302287441, 983105487431216, 983662419211730, 984210092386929, 984748501801904,
    985277642388941, 985797509167567, 986308097244599, 986809401814185, 987301418157858,
    987784141644572, 988257567730749, 988721691960324, 989176509964781, 989622017463201,
    990058210262297, 990485084256457, 990902635427780, 991310859846115, 991709753669100,
    992099313142192, 992479534598710, 992850414459865, 993211949234795, 993564135520595,
    993906970002356, 994240449453188, 994564570734255, 994879330794806, 995184726672197,
    995480755491927, 995767414467660, 996044700901252, 996312612182778, 996571145790555,
    996820299291166, 997060070339483, 997290456678690, 997511456140303, 997723066644192,
    997925286198596, 998118112900149, 998301544933893, 998475580573295, 998640218180265,
    998795456205172, 998941293186857, 999077727752645, 999204758618364, 999322384588350,
    999430604555462, 999529417501093, 999618822495179, 999698818696204, 999769405351215,
    999830581795823, 999882347454213, 999924701839145, 999957644551964, 999981175282601,
    999995293809576, 1000000000000000]

def unit : Int := 10 ^ 15

theorem length_sinTableDigits : sinTableDigits.length = 513 := by
  decide +kernel

def sinTableQtr : QuarterWave 512 where
  values := sinTableDigits.map fun v : Int => (v : ℚ) / unit
  length_eq := by rw [List.length_map, length_sinTableDigits]
  first := by
    rw [List.getElem?_map, show sinTableDigits[0]? = some 0 from rfl]
    norm_num
  last := by
    rw [List.getElem?_map, show sinTableDigits[512]? = some unit by decide +kernel]
    norm_num [unit]

def digit (j : Nat) : Int := sinTableDigits.getD j 0

theorem values_getElem? {j : Nat} (hj : j ≤ 512) :
    sinTableQtr.values[j]? = some ((digit j : ℚ) / unit) := by
  have hlt : j < sinTableDigits.length := by
    rw [length_sinTableDigits]
    omega
  rw [sinTableQtr, List.getElem?_map, List.getElem?_eq_getElem hlt, digit,
    List.getD_eq_getElem _ _ hlt, Option.map_some]

/-- Each entry and its complement are the ones before them, turned by the first step, up to the
last digits. -/
theorem digit_turn : ∀ j ∈ List.range 512,
    |digit (511 - j) * unit - (digit (512 - j) * digit 511 - digit j * digit 1)| ≤ 2 * unit ∧
      |digit (j + 1) * unit - (digit (512 - j) * digit 1 + digit j * digit 511)| ≤ 2 * unit ∧
      |digit (512 - j)| ≤ unit ∧ |digit j| ≤ unit := by
  decide +kernel

end Table

section Accuracy

noncomputable def point (j : Nat) : ℂ :=
  ⟨(digit (512 - j) : ℝ) / unit, (digit j : ℝ) / unit⟩

noncomputable def stepAngle : ℝ := Real.pi / 1024

noncomputable def circle (x : ℝ) : ℂ := ⟨Real.cos x, Real.sin x⟩

theorem circle_eq (x : ℝ) : circle x = Complex.exp (x * Complex.I) := by
  rw [circle, ← Complex.exp_ofReal_mul_I_re, ← Complex.exp_ofReal_mul_I_im, Complex.eta]

theorem circle_add (x y : ℝ) : circle (x + y) = circle x * circle y := by
  rw [circle_eq, circle_eq, circle_eq, ← Complex.exp_add]
  congr 1
  push_cast
  ring

theorem norm_circle (x : ℝ) : ‖circle x‖ = 1 := by
  rw [circle_eq, Complex.norm_exp_ofReal_mul_I]

theorem stepAngle_bounds : 0.0030679615757712 ≤ stepAngle ∧ stepAngle ≤ 0.0030679615757713 := by
  have hlower := Real.pi_gt_d20
  have hupper := Real.pi_lt_d20
  rw [stepAngle]
  constructor <;> linarith

theorem stepAngle_nonneg : 0 ≤ stepAngle :=
  le_trans (by norm_num) stepAngle_bounds.1

theorem norm_le_of_parts {z : ℂ} {b c : ℝ} (hre : |z.re| ≤ b) (him : |z.im| ≤ c) :
    ‖z‖ ≤ b + c :=
  (Complex.norm_le_abs_re_add_abs_im z).trans (add_le_add hre him)

theorem abs_units_le {a p : Int} (h : |a * unit - p| ≤ 2 * unit) :
    |(a : ℝ) / unit - p / (unit * unit)| ≤ 2 / 10 ^ 15 := by
  have hunit : (unit : ℝ) = 10 ^ 15 := by norm_num [unit]
  have hpos : (0 : ℝ) < unit * unit := by
    rw [hunit]
    norm_num
  have hcast : |(a : ℝ) * unit - p| ≤ 2 * unit := by exact_mod_cast h
  have hsplit : (a : ℝ) / unit - p / (unit * unit) = (a * unit - p) / (unit * unit) := by
    rw [hunit]
    ring
  have hbound : 2 / 10 ^ 15 * ((unit : ℝ) * unit) = 2 * unit := by
    rw [hunit]
    norm_num
  rw [hsplit, abs_div, abs_of_pos hpos, div_le_iff₀ hpos, hbound]
  exact hcast

theorem abs_digit_le {a : Int} (h : |a| ≤ unit) : |(a : ℝ) / unit| ≤ 1 := by
  have hpos : (0 : ℝ) < unit := by norm_num [unit]
  have hcast : |(a : ℝ)| ≤ unit := by exact_mod_cast h
  rw [abs_div, abs_of_pos hpos, div_le_one hpos]
  exact hcast

variable {j : Nat}

theorem norm_point_le (hj : j < 512) : ‖point j‖ ≤ 2 := by
  obtain ⟨-, -, hcos, hsin⟩ := digit_turn j (List.mem_range.mpr hj)
  calc ‖point j‖ ≤ 1 + 1 := norm_le_of_parts (abs_digit_le hcos) (abs_digit_le hsin)
    _ = 2 := by norm_num

theorem point_turn (hj : j < 512) : ‖point (j + 1) - point j * point 1‖ ≤ 4 / 10 ^ 15 := by
  obtain ⟨hcos, hsin, -, -⟩ := digit_turn j (List.mem_range.mpr hj)
  have hnext : 512 - (j + 1) = 511 - j := by omega
  have hre := abs_units_le hcos
  have him := abs_units_le hsin
  refine (@norm_le_of_parts _ (2 / 10 ^ 15) (2 / 10 ^ 15) ?_ ?_).trans_eq (by norm_num)
  · refine (congrArg abs ?_).trans_le hre
    simp only [point, hnext, Complex.sub_re, Complex.mul_re]
    push_cast
    ring
  · refine (congrArg abs ?_).trans_le him
    simp only [point, hnext, Complex.sub_im, Complex.mul_im]
    push_cast
    ring

theorem digit_one : digit 1 = 3067956762966 := by decide +kernel

theorem digit_last : digit 511 = 999995293809576 := by decide +kernel

theorem cos_first : |(digit 511 : ℝ) / unit - Real.cos stepAngle| ≤ 85 / 10 ^ 13 := by
  obtain ⟨hlower, hupper⟩ := stepAngle_bounds
  have habs : |stepAngle| = stepAngle := abs_of_nonneg stepAngle_nonneg
  have hseries := @Real.cos_bound stepAngle (by rw [habs]; linarith)
  have hfourth : stepAngle ^ 4 ≤ 0.0030679615757713 ^ 4 :=
    pow_le_pow_left₀ stepAngle_nonneg hupper 4
  have hsq : 0.0030679615757712 ^ 2 ≤ stepAngle ^ 2 := pow_le_pow_left₀ (by norm_num) hlower 2
  have hsq' : stepAngle ^ 2 ≤ 0.0030679615757713 ^ 2 :=
    pow_le_pow_left₀ stepAngle_nonneg hupper 2
  have hdigit : (digit 511 : ℝ) / unit = 0.999995293809576 := by norm_num [digit_last, unit]
  rw [habs] at hseries
  norm_num at hfourth hsq hsq'
  rw [hdigit, abs_le]
  rw [abs_le] at hseries
  constructor <;> linarith

theorem sin_first : |(digit 1 : ℝ) / unit - Real.sin stepAngle| ≤ 1 / 10 ^ 13 := by
  obtain ⟨hlower, hupper⟩ := stepAngle_bounds
  have habs : |stepAngle| = stepAngle := abs_of_nonneg stepAngle_nonneg
  have hseries := @Real.sin_bound stepAngle (by rw [habs]; linarith)
  have hfifth : stepAngle ^ 5 ≤ 0.0030679615757713 ^ 5 :=
    pow_le_pow_left₀ stepAngle_nonneg hupper 5
  have hcube : 0.0030679615757712 ^ 3 ≤ stepAngle ^ 3 := pow_le_pow_left₀ (by norm_num) hlower 3
  have hcube' : stepAngle ^ 3 ≤ 0.0030679615757713 ^ 3 :=
    pow_le_pow_left₀ stepAngle_nonneg hupper 3
  have hdigit : (digit 1 : ℝ) / unit = 0.003067956762966 := by norm_num [digit_one, unit]
  rw [habs] at hseries
  norm_num at hfifth hcube hcube'
  rw [hdigit, abs_le]
  rw [abs_le] at hseries
  constructor <;> linarith

theorem point_one_near : ‖point 1 - circle stepAngle‖ ≤ 9 / 10 ^ 12 :=
  (norm_le_of_parts cos_first sin_first).trans (by norm_num)

theorem point_near (hj : j ≤ 512) :
    ‖point j - circle (j * stepAngle)‖ ≤ j * (19 / 10 ^ 12) := by
  induction j with
  | zero =>
    have hzero : digit 0 = 0 := by decide +kernel
    have hlast : digit 512 = unit := by decide +kernel
    have hpoint : point 0 = circle ((0 : Nat) * stepAngle) := by
      rw [point, circle, Nat.sub_zero, hzero, hlast, Nat.cast_zero, zero_mul, Real.cos_zero,
        Real.sin_zero]
      norm_num [unit]
    rw [hpoint, sub_self, norm_zero, Nat.cast_zero, zero_mul]
  | succ j ih =>
    have hlt : j < 512 := hj
    have hsplit : point (j + 1) - circle ((j + 1 : Nat) * stepAngle) =
        point (j + 1) - point j * point 1 + (point j - circle (j * stepAngle)) * circle stepAngle +
          point j * (point 1 - circle stepAngle) := by
      have hangle : ((j + 1 : Nat) : ℝ) * stepAngle = j * stepAngle + stepAngle := by
        push_cast
        ring
      rw [hangle, circle_add]
      ring
    have hturn := point_turn hlt
    have hbefore := ih hlt.le
    have hfirst := mul_le_mul (norm_point_le hlt) point_one_near (norm_nonneg _) zero_le_two
    rw [hsplit]
    calc _ ≤ ‖point (j + 1) - point j * point 1‖ +
          ‖(point j - circle (j * stepAngle)) * circle stepAngle‖ +
          ‖point j * (point 1 - circle stepAngle)‖ := norm_add₃_le
      _ = ‖point (j + 1) - point j * point 1‖ + ‖point j - circle (j * stepAngle)‖ +
          ‖point j‖ * ‖point 1 - circle stepAngle‖ := by
          rw [norm_mul, norm_mul, norm_circle, mul_one]
      _ ≤ (j + 1 : Nat) * (19 / 10 ^ 12) := by
          push_cast
          linarith

theorem values_near (hj : j ≤ 512) :
    |(digit j : ℝ) / unit - Real.sin (j * stepAngle)| ≤ 1 / 10 ^ 8 := by
  have hnear := (Complex.abs_im_le_norm _).trans (point_near hj)
  have hcast : (j : ℝ) ≤ 512 := by exact_mod_cast hj
  rw [Complex.sub_im] at hnear
  exact hnear.trans (by linarith)

end Accuracy

end NanoVNA.SineTable
