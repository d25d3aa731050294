import OpsContent.Text.Printable

/-!
# Lower case

The lower case of text in any script. One letter has a lower case of two characters, and a
capital sigma becomes a final sigma at the end of a word; all other letters map one to one. Many
stand right before their lower case, many keep a distance from it, and some are far from it on
their own.
-/

namespace OpsContent.Text

/-- Stretches where each even code point is a letter with its lower case behind it. -/
def evenPairs : List Nat :=
  [256, 48, 2, 6, 18, 46, 10, 4, 18, 2, 6, 6, 6, 2, 10, 2, 2, 2, 10, 2, 20, 18, 2, 4, 2, 40, 2, 18,
   18, 10, 288, 4, 2, 2, 96, 24, 10, 2, 100, 34, 8, 54, 16, 96, 6352, 150, 10, 96, 3424, 2, 16, 2,
   12, 100, 14, 2, 31052, 46, 18, 28, 134, 14, 2, 62, 14, 10, 8, 4, 2, 20, 10, 16, 12, 2, 4, 4]

/-- Stretches where each odd code point is a letter with its lower case behind it. -/
def oddPairs : List Nat :=
  [313, 16, 48, 6, 8, 2, 2, 2, 4, 2, 20, 2, 6, 2, 2, 4, 14, 2, 4, 18, 94, 2, 4, 2, 436, 2, 200, 14,
   7348, 2, 2786, 6, 8, 2, 116, 4, 31370, 4, 14, 2, 58, 4, 42, 2]

/-- Letters by their distance from their lower case. -/
def shiftedRuns : List (Int × List Nat) :=
  [(-42308, [42922, 1, 3, 1]), (-10815, [11390, 2]), (-3008, [7312, 43, 2, 3]),
   (-130, [544, 1, 476, 3]), (-128, [8184, 2]), (-126, [8186, 2]), (-112, [8170, 2]),
   (-100, [8154, 2]), (-86, [8136, 4]), (-74, [8122, 2]), (-9, [8124, 1, 15, 1, 47, 1]),
   (-8, [7944, 8, 8, 6, 10, 8, 8, 8, 8, 6, 11, 1, 1, 1, 1, 1, 1, 1, 8, 8, 24, 8, 8, 8, 8, 8, 8, 2,
     30, 2, 14, 2]),
   (-7, [1017, 1, 7154, 1]), (2, [452, 1, 2, 1, 2, 1, 38, 1]), (8, [975, 1, 4128, 6]),
   (16, [8544, 16]), (26, [9398, 26]),
   (32, [65, 26, 101, 23, 1, 7, 690, 17, 1, 9, 100, 32, 64241, 26, 6501, 32, 21888, 32]),
   (34, [125184, 34]), (37, [904, 3]), (39, [66928, 11, 1, 15, 1, 7, 1, 2]),
   (40, [66560, 40, 136, 36]), (48, [1329, 38, 9897, 48]), (63, [910, 2]),
   (64, [908, 1, 67827, 51]), (80, [1024, 16]), (205, [393, 2, 8, 1]), (211, [406, 1, 5, 1]),
   (217, [433, 2]), (218, [422, 1, 2, 1, 4, 1]), (7264, [4256, 38, 1, 1, 5, 1]),
   (38864, [5024, 80])]

/-- Single letters, each with its lower case. -/
def singleLetters : List (Nat × Nat) :=
  [(376, 255), (385, 595), (390, 596), (398, 477), (399, 601), (400, 603), (404, 611), (407, 616),
   (413, 626), (415, 629), (439, 658), (502, 405), (503, 447), (570, 11365), (573, 410),
   (574, 11366), (579, 384), (580, 649), (581, 652), (895, 1011), (902, 940), (1012, 952),
   (1216, 1231), (7838, 223), (8486, 969), (8490, 107), (8491, 229), (8498, 8526), (11362, 619),
   (11363, 7549), (11364, 637), (11373, 593), (11374, 625), (11375, 592), (11376, 594),
   (42877, 7545), (42893, 613), (42923, 604), (42924, 609), (42925, 620), (42928, 670),
   (42929, 647), (42930, 669), (42931, 43859), (42948, 42900), (42949, 642), (42950, 7566)]

/-- Characters that have case. -/
def casedRuns : List Nat :=
  [65, 26, 6, 26, 47, 1, 10, 1, 4, 1, 5, 23, 1, 31, 1, 195, 1, 4, 4, 208, 1, 36, 7, 2, 30, 5, 96, 1,
   42, 4, 2, 2, 2, 4, 1, 1, 6, 1, 1, 3, 1, 1, 1, 20, 1, 83, 1, 139, 8, 166, 1, 38, 9, 41, 2839, 38,
   1, 1, 5, 1, 2, 43, 2, 3, 672, 86, 2, 6, 2178, 9, 7, 43, 2, 3, 64, 192, 64, 278, 2, 6, 2, 38, 2,
   6, 2, 8, 1, 1, 1, 1, 1, 1, 1, 31, 2, 53, 1, 7, 1, 1, 3, 3, 1, 7, 3, 4, 2, 6, 4, 13, 5, 3, 1, 7,
   116, 1, 13, 1, 16, 13, 101, 1, 4, 1, 2, 10, 1, 1, 3, 5, 6, 1, 1, 1, 1, 1, 1, 4, 1, 6, 4, 1, 2, 4,
   5, 5, 4, 1, 17, 32, 3, 2, 817, 52, 1814, 229, 6, 4, 3, 2, 12, 38, 1, 1, 5, 1, 30994, 46, 18, 30,
   132, 102, 3, 4, 1, 59, 5, 2, 1, 1, 1, 5, 27, 2, 1, 3, 821, 43, 1, 13, 7, 80, 20288, 7, 12, 5,
   1033, 26, 6, 26, 1189, 80, 96, 36, 4, 36, 116, 11, 1, 15, 1, 7, 1, 2, 1, 11, 1, 15, 1, 7, 1, 2,
   1731, 51, 13, 51, 2989, 64, 21856, 64, 25984, 85, 1, 71, 1, 2, 2, 1, 2, 2, 2, 4, 1, 12, 1, 1, 1,
   7, 1, 65, 1, 4, 2, 8, 1, 7, 1, 28, 1, 4, 1, 5, 1, 1, 3, 7, 1, 340, 2, 25, 1, 25, 1, 31, 1, 25, 1,
   31, 1, 25, 1, 31, 1, 25, 1, 31, 1, 25, 1, 8, 1844, 10, 1, 20, 2529, 68, 2028, 26, 6, 26, 6, 26]

/-- Characters that attach to the one before them, but are not passed over as others of them are
when the end of a word is looked for. -/
def spacingRuns : List Nat :=
  [2494, 1, 24, 1, 358, 1, 24, 1, 102, 1, 24, 1, 234, 1, 18, 2, 103, 1, 24, 1, 119, 1, 15, 1, 3413,
   1, 5368, 2, 58126, 1, 24, 1, 344, 1, 12, 1, 241, 1, 896, 1, 47156, 1, 8, 5]

/-- Characters that are passed over there without attaching to the one before them. -/
def looseRuns : List Nat :=
  [39, 1, 6, 1, 11, 1, 35, 1, 1, 1, 71, 1, 4, 1, 1, 1, 4, 1, 2, 2, 503, 80, 116, 2, 4, 1, 9, 2, 1,
   1, 465, 1, 5, 1, 148, 1, 11, 6, 22, 1, 35, 1, 156, 1, 7, 2, 40, 1, 228, 2, 4, 1, 31, 1, 9, 1, 3,
   1, 95, 1, 7, 2, 55, 1, 24, 1, 142, 1, 1236, 1, 127, 1, 565, 1, 1754, 1, 54, 1, 52, 1, 611, 1,
   464, 6, 174, 63, 13, 1, 34, 37, 509, 1, 1, 3, 11, 3, 13, 3, 13, 3, 13, 2, 12, 1, 1, 3, 8, 2, 10,
   1, 2, 1, 2, 5, 49, 5, 1, 10, 1, 1, 13, 1, 16, 13, 3039, 2, 241, 1, 191, 1, 469, 1, 43, 5, 5, 1,
   95, 4, 93, 3, 28438, 1, 1250, 6, 270, 1, 114, 1, 28, 2, 98, 34, 78, 1, 23, 3, 103, 3, 3, 2, 469,
   1, 22, 1, 137, 1, 108, 1, 21, 2, 102, 5, 9, 3, 20550, 17, 592, 1, 62, 1, 2, 1, 169, 1, 7, 1, 6,
   1, 11, 1, 35, 1, 1, 1, 47, 1, 114, 1, 21, 3, 1924, 6, 1, 42, 1, 9, 2306, 1, 15, 1, 9058, 9,
   14087, 4, 1103, 13, 64, 2, 1, 1, 16396, 4, 1, 7, 1, 2, 3233, 4, 5327, 8, 4028, 7, 2061, 1, 2735,
   5, 789505, 1]

def lowerCode (code : Nat) : Nat :=
  if inRuns false (if code % 2 == 0 then evenPairs else oddPairs) code then code + 1
  else match singleLetters.lookup code, shiftedRuns.find? (inRuns false ·.2 code) with
    | some lower, _ => lower
    | none, some (distance, _) => (code + distance).toNat
    | none, none => code

/-- The lower case of a character on its own. -/
def lowerChar (char : Char) : List Char :=
  if char.toNat == 0x130 then ['i', Char.ofNat 0x307] else [Char.ofNat (lowerCode char.toNat)]

def isPassed (code : Nat) : Bool :=
  inRuns false looseRuns code || inRuns false extendingRuns code && !inRuns false spacingRuns code

def meetsCased : List Char → Bool
  | [] => false
  | char :: rest =>
    if isPassed char.toNat then meetsCased rest else inRuns false casedRuns char.toNat

/-- Lower case of the rest of a text, given the characters before it in reverse. -/
def lowerChars (before : List Char) : List Char → List Char
  | [] => []
  | char :: rest =>
    (if char.toNat == 0x3A3 then
      [Char.ofNat (if meetsCased before && !meetsCased rest then 0x3C2 else 0x3C3)]
    else lowerChar char) ++ lowerChars (char :: before) rest

/-- A text in lower case. -/
def lower (text : String) : String :=
  String.ofList (lowerChars [] text.toList)

end OpsContent.Text
