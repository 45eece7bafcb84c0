import PatternGraph.Text.RangeTable

/-!
Characters with a part in emoji sequences: those that a selector turns into an emoji or into plain
text, those that take up a skin tone, and those that spell the name of a flag.
-/
namespace PatternGraph.Text.Width

/-- Where runs of characters that the emoji selector may follow begin and end. -/
def emojiBaseTable : RangeTable := ⟨#[
  35, 36, 42, 43, 48, 58, 169, 170, 174, 175, 8252, 8253, 8265, 8266, 8482, 8483, 8505, 8506,
  8596, 8602, 8617, 8619, 8986, 8988, 9000, 9001, 9167, 9168, 9193, 9204, 9208, 9211, 9410, 9411,
  9642, 9644, 9654, 9655, 9664, 9665, 9723, 9727, 9728, 9733, 9742, 9743, 9745, 9746, 9748, 9750,
  9752, 9753, 9757, 9758, 9760, 9761, 9762, 9764, 9766, 9767, 9770, 9771, 9774, 9776, 9784, 9787,
  9792, 9793, 9794, 9795, 9800, 9812, 9823, 9825, 9827, 9828, 9829, 9831, 9832, 9833, 9851, 9852,
  9854, 9856, 9874, 9880, 9881, 9882, 9883, 9885, 9888, 9890, 9895, 9896, 9898, 9900, 9904, 9906,
  9917, 9919, 9924, 9926, 9928, 9929, 9934, 9936, 9937, 9938, 9939, 9941, 9961, 9963, 9968, 9974,
  9975, 9979, 9981, 9982, 9986, 9987, 9989, 9990, 9992, 9998, 9999, 10000, 10002, 10003, 10004,
  10005, 10006, 10007, 10013, 10014, 10017, 10018, 10024, 10025, 10035, 10037, 10052, 10053,
  10055, 10056, 10060, 10061, 10062, 10063, 10067, 10070, 10071, 10072, 10083, 10085, 10133,
  10136, 10145, 10146, 10160, 10161, 10175, 10176, 10548, 10550, 11013, 11016, 11035, 11037,
  11088, 11089, 11093, 11094, 12336, 12337, 12349, 12350, 12951, 12952, 12953, 12954, 126980,
  126981, 127344, 127346, 127358, 127360, 127490, 127491, 127514, 127515, 127535, 127536, 127543,
  127544, 127757, 127760, 127765, 127766, 127772, 127773, 127777, 127778, 127780, 127789, 127798,
  127799, 127864, 127865, 127869, 127870, 127891, 127892, 127894, 127896, 127897, 127900, 127902,
  127904, 127911, 127912, 127916, 127919, 127938, 127939, 127940, 127941, 127942, 127943, 127946,
  127951, 127956, 127969, 127981, 127982, 127987, 127988, 127989, 127990, 127991, 127992, 128008,
  128009, 128021, 128022, 128031, 128032, 128038, 128039, 128063, 128064, 128065, 128067, 128070,
  128074, 128077, 128079, 128083, 128084, 128106, 128107, 128125, 128126, 128163, 128164, 128176,
  128177, 128179, 128180, 128187, 128188, 128191, 128192, 128203, 128204, 128218, 128219, 128223,
  128224, 128228, 128231, 128234, 128238, 128247, 128248, 128249, 128252, 128253, 128254, 128264,
  128265, 128269, 128270, 128274, 128276, 128329, 128331, 128336, 128360, 128367, 128369, 128371,
  128378, 128391, 128392, 128394, 128398, 128400, 128401, 128421, 128422, 128424, 128425, 128433,
  128435, 128444, 128445, 128450, 128453, 128465, 128468, 128476, 128479, 128481, 128482, 128483,
  128484, 128488, 128489, 128495, 128496, 128499, 128500, 128506, 128507, 128528, 128529, 128647,
  128648, 128653, 128654, 128657, 128658, 128660, 128661, 128664, 128665, 128685, 128686, 128690,
  128691, 128697, 128699, 128700, 128701, 128715, 128716, 128717, 128720, 128736, 128742, 128745,
  128746, 128752, 128753, 128755, 128756]⟩

/-- Where runs of characters that are emoji unless the text selector follows begin and end. -/
def textBaseTable : RangeTable := ⟨#[
  8986, 8988, 9193, 9197, 9200, 9201, 9203, 9204, 9725, 9727, 9748, 9750, 9800, 9812, 9855, 9856,
  9875, 9876, 9889, 9890, 9898, 9900, 9917, 9919, 9924, 9926, 9934, 9935, 9940, 9941, 9962, 9963,
  9970, 9972, 9973, 9974, 9978, 9979, 9981, 9982, 9989, 9990, 9994, 9996, 10024, 10025, 10060,
  10061, 10062, 10063, 10067, 10070, 10071, 10072, 10133, 10136, 10160, 10161, 10175, 10176,
  11035, 11037, 11088, 11089, 11093, 11094, 126980, 126981, 127757, 127760, 127765, 127766,
  127772, 127773, 127864, 127865, 127891, 127892, 127911, 127912, 127916, 127919, 127938, 127939,
  127940, 127941, 127942, 127943, 127946, 127947, 127968, 127969, 127981, 127982, 128008, 128009,
  128021, 128022, 128031, 128032, 128038, 128039, 128066, 128067, 128070, 128074, 128077, 128079,
  128083, 128084, 128106, 128107, 128125, 128126, 128163, 128164, 128176, 128177, 128179, 128180,
  128187, 128188, 128191, 128192, 128203, 128204, 128218, 128219, 128223, 128224, 128228, 128231,
  128234, 128238, 128247, 128248, 128249, 128252, 128264, 128265, 128269, 128270, 128274, 128276,
  128336, 128360, 128528, 128529, 128647, 128648, 128653, 128654, 128657, 128658, 128660, 128661,
  128664, 128665, 128685, 128686, 128690, 128691, 128697, 128699, 128700, 128701]⟩

def toneBaseTable : RangeTable := ⟨#[
  9757, 9758, 9977, 9978, 9994, 9998, 127877, 127878, 127938, 127941, 127943, 127944, 127946,
  127949, 128066, 128068, 128070, 128081, 128102, 128121, 128124, 128125, 128129, 128132, 128133,
  128136, 128143, 128144, 128145, 128146, 128170, 128171, 128372, 128374, 128378, 128379, 128400,
  128401, 128405, 128407, 128581, 128584, 128587, 128592, 128675, 128676, 128692, 128695, 128704,
  128705, 128716, 128717, 129292, 129293, 129295, 129296, 129304, 129312, 129318, 129319, 129328,
  129338, 129340, 129343, 129399, 129400, 129461, 129463, 129464, 129466, 129467, 129468, 129485,
  129488, 129489, 129502, 129731, 129734, 129776, 129785]⟩

def joiner : Char := '\u200d'

def textSelector : Char := '\ufe0e'

def emojiSelector : Char := '\ufe0f'

def enclosingKeycap : Char := '\u20e3'

def isFlagLetter (c : Char) : Bool := 0x1f1e6 ≤ c.toNat && c.toNat ≤ 0x1f1ff

def isSkinTone (c : Char) : Bool := 0x1f3fb ≤ c.toNat && c.toNat ≤ 0x1f3ff

def isKeycapSign (c : Char) : Bool := c.isDigit || c == '#' || c == '*'

def isTaggedFlag (c : Char) : Bool := c.toNat == 0x1f3f4

def isTagLetter (c : Char) : Bool := 0xe0061 ≤ c.toNat && c.toNat ≤ 0xe007a

def isTagDigit (c : Char) : Bool := 0xe0030 ≤ c.toNat && c.toNat ≤ 0xe0039

def isTagEnd (c : Char) : Bool := c.toNat == 0xe007f

end PatternGraph.Text.Width
