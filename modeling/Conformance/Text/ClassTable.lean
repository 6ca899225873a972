import Conformance.Text.Run

/-!
# Character classes beyond ASCII

The code points from 128 on of each character class that names, paths and quoted text ask about,
as runs in increasing order.  The classes are those of Unicode 14.
-/

namespace Conformance.Text.ClassTable

/-- Letters in upper case: alphabetic and upper-case at once. -/
def capitals : Array Run := #[
  (192, 214, 1), (216, 222, 1), (256, 310, 2), (313, 327, 2), (330, 376, 2), (377, 381, 2),
  (385, 386, 1), (388, 390, 2), (391, 393, 2), (394, 395, 1), (398, 401, 1), (403, 404, 1),
  (406, 408, 1), (412, 413, 1), (415, 416, 1), (418, 422, 2), (423, 425, 2), (428, 430, 2),
  (431, 433, 2), (434, 435, 1), (437, 439, 2), (440, 440, 1), (444, 444, 1), (452, 452, 1),
  (455, 455, 1), (458, 458, 1), (461, 475, 2), (478, 494, 2), (497, 497, 1), (500, 502, 2),
  (503, 504, 1), (506, 562, 2), (570, 571, 1), (573, 574, 1), (577, 579, 2), (580, 582, 1),
  (584, 590, 2), (880, 882, 2), (886, 886, 1), (895, 895, 1), (902, 904, 2), (905, 906, 1),
  (908, 910, 2), (911, 913, 2), (914, 929, 1), (931, 939, 1), (975, 975, 1), (978, 980, 1),
  (984, 1006, 2), (1012, 1012, 1), (1015, 1017, 2), (1018, 1018, 1), (1021, 1071, 1),
  (1120, 1152, 2), (1162, 1216, 2), (1217, 1229, 2), (1232, 1326, 2), (1329, 1366, 1),
  (4256, 4293, 1), (4295, 4295, 1), (4301, 4301, 1), (5024, 5109, 1), (7312, 7354, 1),
  (7357, 7359, 1), (7680, 7828, 2), (7838, 7934, 2), (7944, 7951, 1), (7960, 7965, 1),
  (7976, 7983, 1), (7992, 7999, 1), (8008, 8013, 1), (8025, 8031, 2), (8040, 8047, 1),
  (8120, 8123, 1), (8136, 8139, 1), (8152, 8155, 1), (8168, 8172, 1), (8184, 8187, 1),
  (8450, 8450, 1), (8455, 8455, 1), (8459, 8461, 1), (8464, 8466, 1), (8469, 8469, 1),
  (8473, 8477, 1), (8484, 8490, 2), (8491, 8493, 1), (8496, 8499, 1), (8510, 8511, 1),
  (8517, 8517, 1), (8579, 8579, 1), (11264, 11311, 1), (11360, 11362, 2), (11363, 11364, 1),
  (11367, 11373, 2), (11374, 11376, 1), (11378, 11378, 1), (11381, 11381, 1), (11390, 11392, 1),
  (11394, 11490, 2), (11499, 11501, 2), (11506, 11506, 1), (42560, 42604, 2), (42624, 42650, 2),
  (42786, 42798, 2), (42802, 42862, 2), (42873, 42877, 2), (42878, 42886, 2), (42891, 42893, 2),
  (42896, 42898, 2), (42902, 42922, 2), (42923, 42926, 1), (42928, 42932, 1), (42934, 42948, 2),
  (42949, 42951, 1), (42953, 42953, 1), (42960, 42960, 1), (42966, 42968, 2), (42997, 42997, 1),
  (65313, 65338, 1), (66560, 66599, 1), (66736, 66771, 1), (66928, 66938, 1), (66940, 66954, 1),
  (66956, 66962, 1), (66964, 66965, 1), (68736, 68786, 1), (71840, 71871, 1), (93760, 93791, 1),
  (119808, 119833, 1), (119860, 119885, 1), (119912, 119937, 1), (119964, 119966, 2),
  (119967, 119967, 1), (119970, 119970, 1), (119973, 119974, 1), (119977, 119980, 1),
  (119982, 119989, 1), (120016, 120041, 1), (120068, 120069, 1), (120071, 120074, 1),
  (120077, 120084, 1), (120086, 120092, 1), (120120, 120121, 1), (120123, 120126, 1),
  (120128, 120132, 1), (120134, 120134, 1), (120138, 120144, 1), (120172, 120197, 1),
  (120224, 120249, 1), (120276, 120301, 1), (120328, 120353, 1), (120380, 120405, 1),
  (120432, 120457, 1), (120488, 120512, 1), (120546, 120570, 1), (120604, 120628, 1),
  (120662, 120686, 1), (120720, 120744, 1), (120778, 120778, 1), (125184, 125217, 1)]

/-- Characters in lower case. -/
def lowers : Array Run := #[
  (170, 170, 1), (181, 181, 1), (186, 186, 1), (223, 246, 1), (248, 255, 1), (257, 311, 2),
  (312, 328, 2), (329, 375, 2), (378, 382, 2), (383, 384, 1), (387, 389, 2), (392, 392, 1),
  (396, 397, 1), (402, 402, 1), (405, 405, 1), (409, 411, 1), (414, 414, 1), (417, 421, 2),
  (424, 426, 2), (427, 429, 2), (432, 432, 1), (436, 438, 2), (441, 442, 1), (445, 447, 1),
  (454, 454, 1), (457, 457, 1), (460, 476, 2), (477, 495, 2), (496, 496, 1), (499, 501, 2),
  (505, 563, 2), (564, 569, 1), (572, 572, 1), (575, 576, 1), (578, 578, 1), (583, 591, 2),
  (592, 659, 1), (661, 696, 1), (704, 705, 1), (736, 740, 1), (837, 837, 1), (881, 883, 2),
  (887, 887, 1), (890, 893, 1), (912, 912, 1), (940, 974, 1), (976, 977, 1), (981, 983, 1),
  (985, 1007, 2), (1008, 1011, 1), (1013, 1013, 1), (1016, 1016, 1), (1019, 1020, 1),
  (1072, 1119, 1), (1121, 1153, 2), (1163, 1215, 2), (1218, 1230, 2), (1231, 1327, 2),
  (1376, 1416, 1), (4304, 4346, 1), (4349, 4351, 1), (5112, 5117, 1), (7296, 7304, 1),
  (7424, 7615, 1), (7681, 7829, 2), (7830, 7837, 1), (7839, 7935, 2), (7936, 7943, 1),
  (7952, 7957, 1), (7968, 7975, 1), (7984, 7991, 1), (8000, 8005, 1), (8016, 8023, 1),
  (8032, 8039, 1), (8048, 8061, 1), (8064, 8071, 1), (8080, 8087, 1), (8096, 8103, 1),
  (8112, 8116, 1), (8118, 8119, 1), (8126, 8126, 1), (8130, 8132, 1), (8134, 8135, 1),
  (8144, 8147, 1), (8150, 8151, 1), (8160, 8167, 1), (8178, 8180, 1), (8182, 8183, 1),
  (8305, 8305, 1), (8319, 8319, 1), (8336, 8348, 1), (8458, 8458, 1), (8462, 8463, 1),
  (8467, 8467, 1), (8495, 8495, 1), (8500, 8500, 1), (8505, 8505, 1), (8508, 8509, 1),
  (8518, 8521, 1), (8526, 8526, 1), (8560, 8575, 1), (8580, 8580, 1), (9424, 9449, 1),
  (11312, 11359, 1), (11361, 11361, 1), (11365, 11366, 1), (11368, 11372, 2), (11377, 11379, 2),
  (11380, 11382, 2), (11383, 11389, 1), (11393, 11491, 2), (11492, 11492, 1), (11500, 11502, 2),
  (11507, 11507, 1), (11520, 11557, 1), (11559, 11559, 1), (11565, 11565, 1), (42561, 42605, 2),
  (42625, 42651, 2), (42652, 42653, 1), (42787, 42799, 2), (42800, 42801, 1), (42803, 42863, 2),
  (42864, 42872, 1), (42874, 42876, 2), (42879, 42887, 2), (42892, 42894, 2), (42897, 42899, 2),
  (42900, 42901, 1), (42903, 42921, 2), (42927, 42927, 1), (42933, 42947, 2), (42952, 42954, 2),
  (42961, 42969, 2), (42998, 43000, 2), (43001, 43002, 1), (43824, 43866, 1), (43868, 43880, 1),
  (43888, 43967, 1), (64256, 64262, 1), (64275, 64279, 1), (65345, 65370, 1), (66600, 66639, 1),
  (66776, 66811, 1), (66967, 66977, 1), (66979, 66993, 1), (66995, 67001, 1), (67003, 67004, 1),
  (67456, 67456, 1), (67459, 67461, 1), (67463, 67504, 1), (67506, 67514, 1), (68800, 68850, 1),
  (71872, 71903, 1), (93792, 93823, 1), (119834, 119859, 1), (119886, 119892, 1),
  (119894, 119911, 1), (119938, 119963, 1), (119990, 119993, 1), (119995, 119997, 2),
  (119998, 120003, 1), (120005, 120015, 1), (120042, 120067, 1), (120094, 120119, 1),
  (120146, 120171, 1), (120198, 120223, 1), (120250, 120275, 1), (120302, 120327, 1),
  (120354, 120379, 1), (120406, 120431, 1), (120458, 120485, 1), (120514, 120538, 1),
  (120540, 120545, 1), (120572, 120596, 1), (120598, 120603, 1), (120630, 120654, 1),
  (120656, 120661, 1), (120688, 120712, 1), (120714, 120719, 1), (120746, 120770, 1),
  (120772, 120777, 1), (120779, 120779, 1), (122624, 122633, 1), (122635, 122654, 1),
  (125218, 125251, 1)]

/-- The zero of each block of ten decimal digits. -/
def zeros : Array Nat := #[
  1632, 1776, 1984, 2406, 2534, 2662, 2790, 2918, 3046, 3174, 3302, 3430, 3558, 3664, 3792, 3872,
  4160, 4240, 6112, 6160, 6470, 6608, 6784, 6800, 6992, 7088, 7232, 7248, 42528, 43216, 43264,
  43472, 43504, 43600, 44016, 65296, 66720, 68912, 69734, 69872, 69942, 70096, 70384, 70736,
  70864, 71248, 71360, 71472, 71904, 72016, 72784, 73040, 73120, 92768, 92864, 93008, 120782,
  120792, 120802, 120812, 120822, 123200, 123632, 125264, 130032]

/-- Digits that stand in no decimal block, such as superscripts and circled digits. -/
def loneDigits : Array Run := #[
  (178, 179, 1), (185, 185, 1), (4969, 4977, 1), (6618, 6618, 1), (8304, 8304, 1),
  (8308, 8313, 1), (8320, 8329, 1), (9312, 9320, 1), (9332, 9340, 1), (9352, 9360, 1),
  (9450, 9450, 1), (9461, 9469, 1), (9471, 9471, 1), (10102, 10110, 1), (10112, 10120, 1),
  (10122, 10130, 1), (68160, 68163, 1), (69216, 69224, 1), (69714, 69722, 1), (127232, 127242, 1)]

/-- Control, format, unassigned, private and separator characters, which quoted text escapes. -/
def unprintable : Array Run := #[
  (128, 160, 1), (173, 173, 1), (888, 889, 1), (896, 899, 1), (907, 909, 2), (930, 930, 1),
  (1328, 1328, 1), (1367, 1368, 1), (1419, 1420, 1), (1424, 1424, 1), (1480, 1487, 1),
  (1515, 1518, 1), (1525, 1541, 1), (1564, 1564, 1), (1757, 1757, 1), (1806, 1807, 1),
  (1867, 1868, 1), (1970, 1983, 1), (2043, 2044, 1), (2094, 2095, 1), (2111, 2111, 1),
  (2140, 2141, 1), (2143, 2143, 1), (2155, 2159, 1), (2191, 2199, 1), (2274, 2274, 1),
  (2436, 2436, 1), (2445, 2446, 1), (2449, 2450, 1), (2473, 2473, 1), (2481, 2483, 2),
  (2484, 2485, 1), (2490, 2491, 1), (2501, 2502, 1), (2505, 2506, 1), (2511, 2518, 1),
  (2520, 2523, 1), (2526, 2526, 1), (2532, 2533, 1), (2559, 2560, 1), (2564, 2564, 1),
  (2571, 2574, 1), (2577, 2578, 1), (2601, 2601, 1), (2609, 2609, 1), (2612, 2612, 1),
  (2615, 2615, 1), (2618, 2619, 1), (2621, 2621, 1), (2627, 2630, 1), (2633, 2634, 1),
  (2638, 2640, 1), (2642, 2648, 1), (2653, 2655, 2), (2656, 2661, 1), (2679, 2688, 1),
  (2692, 2692, 1), (2702, 2702, 1), (2706, 2706, 1), (2729, 2729, 1), (2737, 2737, 1),
  (2740, 2740, 1), (2746, 2747, 1), (2758, 2758, 1), (2762, 2762, 1), (2766, 2767, 1),
  (2769, 2783, 1), (2788, 2789, 1), (2802, 2808, 1), (2816, 2816, 1), (2820, 2820, 1),
  (2829, 2830, 1), (2833, 2834, 1), (2857, 2857, 1), (2865, 2865, 1), (2868, 2868, 1),
  (2874, 2875, 1), (2885, 2886, 1), (2889, 2890, 1), (2894, 2900, 1), (2904, 2907, 1),
  (2910, 2910, 1), (2916, 2917, 1), (2936, 2945, 1), (2948, 2948, 1), (2955, 2957, 1),
  (2961, 2961, 1), (2966, 2968, 1), (2971, 2973, 2), (2976, 2978, 1), (2981, 2983, 1),
  (2987, 2989, 1), (3002, 3005, 1), (3011, 3013, 1), (3017, 3017, 1), (3022, 3023, 1),
  (3025, 3030, 1), (3032, 3045, 1), (3067, 3071, 1), (3085, 3085, 1), (3089, 3089, 1),
  (3113, 3113, 1), (3130, 3131, 1), (3141, 3141, 1), (3145, 3145, 1), (3150, 3156, 1),
  (3159, 3159, 1), (3163, 3164, 1), (3166, 3167, 1), (3172, 3173, 1), (3184, 3190, 1),
  (3213, 3213, 1), (3217, 3217, 1), (3241, 3241, 1), (3252, 3252, 1), (3258, 3259, 1),
  (3269, 3269, 1), (3273, 3273, 1), (3278, 3284, 1), (3287, 3292, 1), (3295, 3295, 1),
  (3300, 3301, 1), (3312, 3312, 1), (3315, 3327, 1), (3341, 3341, 1), (3345, 3345, 1),
  (3397, 3397, 1), (3401, 3401, 1), (3408, 3411, 1), (3428, 3429, 1), (3456, 3456, 1),
  (3460, 3460, 1), (3479, 3481, 1), (3506, 3506, 1), (3516, 3518, 2), (3519, 3519, 1),
  (3527, 3529, 1), (3531, 3534, 1), (3541, 3543, 2), (3552, 3557, 1), (3568, 3569, 1),
  (3573, 3584, 1), (3643, 3646, 1), (3676, 3712, 1), (3715, 3717, 2), (3723, 3723, 1),
  (3748, 3750, 2), (3774, 3775, 1), (3781, 3783, 2), (3790, 3791, 1), (3802, 3803, 1),
  (3808, 3839, 1), (3912, 3912, 1), (3949, 3952, 1), (3992, 3992, 1), (4029, 4029, 1),
  (4045, 4045, 1), (4059, 4095, 1), (4294, 4296, 2), (4297, 4300, 1), (4302, 4303, 1),
  (4681, 4681, 1), (4686, 4687, 1), (4695, 4697, 2), (4702, 4703, 1), (4745, 4745, 1),
  (4750, 4751, 1), (4785, 4785, 1), (4790, 4791, 1), (4799, 4801, 2), (4806, 4807, 1),
  (4823, 4823, 1), (4881, 4881, 1), (4886, 4887, 1), (4955, 4956, 1), (4989, 4991, 1),
  (5018, 5023, 1), (5110, 5111, 1), (5118, 5119, 1), (5760, 5760, 1), (5789, 5791, 1),
  (5881, 5887, 1), (5910, 5918, 1), (5943, 5951, 1), (5972, 5983, 1), (5997, 5997, 1),
  (6001, 6001, 1), (6004, 6015, 1), (6110, 6111, 1), (6122, 6127, 1), (6138, 6143, 1),
  (6158, 6158, 1), (6170, 6175, 1), (6265, 6271, 1), (6315, 6319, 1), (6390, 6399, 1),
  (6431, 6431, 1), (6444, 6447, 1), (6460, 6463, 1), (6465, 6467, 1), (6510, 6511, 1),
  (6517, 6527, 1), (6572, 6575, 1), (6602, 6607, 1), (6619, 6621, 1), (6684, 6685, 1),
  (6751, 6751, 1), (6781, 6782, 1), (6794, 6799, 1), (6810, 6815, 1), (6830, 6831, 1),
  (6863, 6911, 1), (6989, 6991, 1), (7039, 7039, 1), (7156, 7163, 1), (7224, 7226, 1),
  (7242, 7244, 1), (7305, 7311, 1), (7355, 7356, 1), (7368, 7375, 1), (7419, 7423, 1),
  (7958, 7959, 1), (7966, 7967, 1), (8006, 8007, 1), (8014, 8015, 1), (8024, 8030, 2),
  (8062, 8063, 1), (8117, 8117, 1), (8133, 8133, 1), (8148, 8149, 1), (8156, 8156, 1),
  (8176, 8177, 1), (8181, 8181, 1), (8191, 8207, 1), (8232, 8239, 1), (8287, 8303, 1),
  (8306, 8307, 1), (8335, 8335, 1), (8349, 8351, 1), (8385, 8399, 1), (8433, 8447, 1),
  (8588, 8591, 1), (9255, 9279, 1), (9291, 9311, 1), (11124, 11125, 1), (11158, 11158, 1),
  (11508, 11512, 1), (11558, 11560, 2), (11561, 11564, 1), (11566, 11567, 1), (11624, 11630, 1),
  (11633, 11646, 1), (11671, 11679, 1), (11687, 11687, 1), (11695, 11695, 1), (11703, 11703, 1),
  (11711, 11711, 1), (11719, 11719, 1), (11727, 11727, 1), (11735, 11735, 1), (11743, 11743, 1),
  (11870, 11903, 1), (11930, 11930, 1), (12020, 12031, 1), (12246, 12271, 1), (12284, 12288, 1),
  (12352, 12352, 1), (12439, 12440, 1), (12544, 12548, 1), (12592, 12592, 1), (12687, 12687, 1),
  (12772, 12783, 1), (12831, 12831, 1), (42125, 42127, 1), (42183, 42191, 1), (42540, 42559, 1),
  (42744, 42751, 1), (42955, 42959, 1), (42962, 42964, 2), (42970, 42993, 1), (43053, 43055, 1),
  (43066, 43071, 1), (43128, 43135, 1), (43206, 43213, 1), (43226, 43231, 1), (43348, 43358, 1),
  (43389, 43391, 1), (43470, 43470, 1), (43482, 43485, 1), (43519, 43519, 1), (43575, 43583, 1),
  (43598, 43599, 1), (43610, 43611, 1), (43715, 43738, 1), (43767, 43776, 1), (43783, 43784, 1),
  (43791, 43792, 1), (43799, 43807, 1), (43815, 43815, 1), (43823, 43823, 1), (43884, 43887, 1),
  (44014, 44015, 1), (44026, 44031, 1), (55204, 55215, 1), (55239, 55242, 1), (55292, 55295, 1),
  (57344, 63743, 1), (64110, 64111, 1), (64218, 64255, 1), (64263, 64274, 1), (64280, 64284, 1),
  (64311, 64311, 1), (64317, 64319, 2), (64322, 64322, 1), (64325, 64325, 1), (64451, 64466, 1),
  (64912, 64913, 1), (64968, 64974, 1), (64976, 65007, 1), (65050, 65055, 1), (65107, 65107, 1),
  (65127, 65127, 1), (65132, 65135, 1), (65141, 65141, 1), (65277, 65280, 1), (65471, 65473, 1),
  (65480, 65481, 1), (65488, 65489, 1), (65496, 65497, 1), (65501, 65503, 1), (65511, 65511, 1),
  (65519, 65531, 1), (65534, 65535, 1), (65548, 65548, 1), (65575, 65575, 1), (65595, 65595, 1),
  (65598, 65598, 1), (65614, 65615, 1), (65630, 65663, 1), (65787, 65791, 1), (65795, 65798, 1),
  (65844, 65846, 1), (65935, 65935, 1), (65949, 65951, 1), (65953, 65999, 1), (66046, 66175, 1),
  (66205, 66207, 1), (66257, 66271, 1), (66300, 66303, 1), (66340, 66348, 1), (66379, 66383, 1),
  (66427, 66431, 1), (66462, 66462, 1), (66500, 66503, 1), (66518, 66559, 1), (66718, 66719, 1),
  (66730, 66735, 1), (66772, 66775, 1), (66812, 66815, 1), (66856, 66863, 1), (66916, 66926, 1),
  (66939, 66939, 1), (66955, 66955, 1), (66963, 66963, 1), (66966, 66966, 1), (66978, 66978, 1),
  (66994, 66994, 1), (67002, 67002, 1), (67005, 67071, 1), (67383, 67391, 1), (67414, 67423, 1),
  (67432, 67455, 1), (67462, 67462, 1), (67505, 67505, 1), (67515, 67583, 1), (67590, 67591, 1),
  (67593, 67593, 1), (67638, 67638, 1), (67641, 67643, 1), (67645, 67646, 1), (67670, 67670, 1),
  (67743, 67750, 1), (67760, 67807, 1), (67827, 67827, 1), (67830, 67834, 1), (67868, 67870, 1),
  (67898, 67902, 1), (67904, 67967, 1), (68024, 68027, 1), (68048, 68049, 1), (68100, 68100, 1),
  (68103, 68107, 1), (68116, 68116, 1), (68120, 68120, 1), (68150, 68151, 1), (68155, 68158, 1),
  (68169, 68175, 1), (68185, 68191, 1), (68256, 68287, 1), (68327, 68330, 1), (68343, 68351, 1),
  (68406, 68408, 1), (68438, 68439, 1), (68467, 68471, 1), (68498, 68504, 1), (68509, 68520, 1),
  (68528, 68607, 1), (68681, 68735, 1), (68787, 68799, 1), (68851, 68857, 1), (68904, 68911, 1),
  (68922, 69215, 1), (69247, 69247, 1), (69290, 69290, 1), (69294, 69295, 1), (69298, 69375, 1),
  (69416, 69423, 1), (69466, 69487, 1), (69514, 69551, 1), (69580, 69599, 1), (69623, 69631, 1),
  (69710, 69713, 1), (69750, 69758, 1), (69821, 69821, 1), (69827, 69839, 1), (69865, 69871, 1),
  (69882, 69887, 1), (69941, 69941, 1), (69960, 69967, 1), (70007, 70015, 1), (70112, 70112, 1),
  (70133, 70143, 1), (70162, 70162, 1), (70207, 70271, 1), (70279, 70281, 2), (70286, 70286, 1),
  (70302, 70302, 1), (70314, 70319, 1), (70379, 70383, 1), (70394, 70399, 1), (70404, 70404, 1),
  (70413, 70414, 1), (70417, 70418, 1), (70441, 70441, 1), (70449, 70449, 1), (70452, 70452, 1),
  (70458, 70458, 1), (70469, 70470, 1), (70473, 70474, 1), (70478, 70479, 1), (70481, 70486, 1),
  (70488, 70492, 1), (70500, 70501, 1), (70509, 70511, 1), (70517, 70655, 1), (70748, 70748, 1),
  (70754, 70783, 1), (70856, 70863, 1), (70874, 71039, 1), (71094, 71095, 1), (71134, 71167, 1),
  (71237, 71247, 1), (71258, 71263, 1), (71277, 71295, 1), (71354, 71359, 1), (71370, 71423, 1),
  (71451, 71452, 1), (71468, 71471, 1), (71495, 71679, 1), (71740, 71839, 1), (71923, 71934, 1),
  (71943, 71944, 1), (71946, 71947, 1), (71956, 71956, 1), (71959, 71959, 1), (71990, 71990, 1),
  (71993, 71994, 1), (72007, 72015, 1), (72026, 72095, 1), (72104, 72105, 1), (72152, 72153, 1),
  (72165, 72191, 1), (72264, 72271, 1), (72355, 72367, 1), (72441, 72703, 1), (72713, 72713, 1),
  (72759, 72759, 1), (72774, 72783, 1), (72813, 72815, 1), (72848, 72849, 1), (72872, 72872, 1),
  (72887, 72959, 1), (72967, 72967, 1), (72970, 72970, 1), (73015, 73017, 1), (73019, 73019, 1),
  (73022, 73022, 1), (73032, 73039, 1), (73050, 73055, 1), (73062, 73062, 1), (73065, 73065, 1),
  (73103, 73103, 1), (73106, 73106, 1), (73113, 73119, 1), (73130, 73439, 1), (73465, 73647, 1),
  (73649, 73663, 1), (73714, 73726, 1), (74650, 74751, 1), (74863, 74863, 1), (74869, 74879, 1),
  (75076, 77711, 1), (77811, 77823, 1), (78895, 82943, 1), (83527, 92159, 1), (92729, 92735, 1),
  (92767, 92767, 1), (92778, 92781, 1), (92863, 92863, 1), (92874, 92879, 1), (92910, 92911, 1),
  (92918, 92927, 1), (92998, 93007, 1), (93018, 93018, 1), (93026, 93026, 1), (93048, 93052, 1),
  (93072, 93759, 1), (93851, 93951, 1), (94027, 94030, 1), (94088, 94094, 1), (94112, 94175, 1),
  (94181, 94191, 1), (94194, 94207, 1), (100344, 100351, 1), (101590, 101631, 1),
  (101641, 110575, 1), (110580, 110580, 1), (110588, 110588, 1), (110591, 110591, 1),
  (110883, 110927, 1), (110931, 110947, 1), (110952, 110959, 1), (111356, 113663, 1),
  (113771, 113775, 1), (113789, 113791, 1), (113801, 113807, 1), (113818, 113819, 1),
  (113824, 118527, 1), (118574, 118575, 1), (118599, 118607, 1), (118724, 118783, 1),
  (119030, 119039, 1), (119079, 119080, 1), (119155, 119162, 1), (119275, 119295, 1),
  (119366, 119519, 1), (119540, 119551, 1), (119639, 119647, 1), (119673, 119807, 1),
  (119893, 119893, 1), (119965, 119965, 1), (119968, 119969, 1), (119971, 119972, 1),
  (119975, 119976, 1), (119981, 119981, 1), (119994, 119996, 2), (120004, 120004, 1),
  (120070, 120070, 1), (120075, 120076, 1), (120085, 120085, 1), (120093, 120093, 1),
  (120122, 120122, 1), (120127, 120127, 1), (120133, 120135, 2), (120136, 120137, 1),
  (120145, 120145, 1), (120486, 120487, 1), (120780, 120781, 1), (121484, 121498, 1),
  (121504, 121504, 1), (121520, 122623, 1), (122655, 122879, 1), (122887, 122887, 1),
  (122905, 122906, 1), (122914, 122914, 1), (122917, 122917, 1), (122923, 123135, 1),
  (123181, 123183, 1), (123198, 123199, 1), (123210, 123213, 1), (123216, 123535, 1),
  (123567, 123583, 1), (123642, 123646, 1), (123648, 124895, 1), (124903, 124903, 1),
  (124908, 124908, 1), (124911, 124911, 1), (124927, 124927, 1), (125125, 125126, 1),
  (125143, 125183, 1), (125260, 125263, 1), (125274, 125277, 1), (125280, 126064, 1),
  (126133, 126208, 1), (126270, 126463, 1), (126468, 126468, 1), (126496, 126496, 1),
  (126499, 126501, 2), (126502, 126504, 2), (126515, 126515, 1), (126520, 126524, 2),
  (126525, 126529, 1), (126531, 126534, 1), (126536, 126540, 2), (126544, 126544, 1),
  (126547, 126549, 2), (126550, 126560, 2), (126563, 126565, 2), (126566, 126566, 1),
  (126571, 126571, 1), (126579, 126579, 1), (126584, 126584, 1), (126589, 126591, 2),
  (126602, 126602, 1), (126620, 126624, 1), (126628, 126628, 1), (126634, 126634, 1),
  (126652, 126703, 1), (126706, 126975, 1), (127020, 127023, 1), (127124, 127135, 1),
  (127151, 127152, 1), (127168, 127168, 1), (127184, 127184, 1), (127222, 127231, 1),
  (127406, 127461, 1), (127491, 127503, 1), (127548, 127551, 1), (127561, 127567, 1),
  (127570, 127583, 1), (127590, 127743, 1), (128728, 128732, 1), (128749, 128751, 1),
  (128765, 128767, 1), (128884, 128895, 1), (128985, 128991, 1), (129004, 129007, 1),
  (129009, 129023, 1), (129036, 129039, 1), (129096, 129103, 1), (129114, 129119, 1),
  (129160, 129167, 1), (129198, 129199, 1), (129202, 129279, 1), (129620, 129631, 1),
  (129646, 129647, 1), (129653, 129655, 1), (129661, 129663, 1), (129671, 129679, 1),
  (129709, 129711, 1), (129723, 129727, 1), (129734, 129743, 1), (129754, 129759, 1),
  (129768, 129775, 1), (129783, 129791, 1), (129939, 129939, 1), (129995, 130031, 1),
  (130042, 131071, 1), (173792, 173823, 1), (177977, 177983, 1), (178206, 178207, 1),
  (183970, 183983, 1), (191457, 194559, 1), (195102, 196607, 1), (201547, 917759, 1),
  (918000, 1114111, 1)]

end Conformance.Text.ClassTable
