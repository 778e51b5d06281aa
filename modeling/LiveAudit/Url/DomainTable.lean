/-!
# Characters of domain names

What becomes of a character above ASCII in a domain name: it may be refused, passed over, replaced,
or kept as it is. Letters are replaced by their small forms and compatibility characters by plain
ones. The tables hold what can be told character by character; composition of accents is not among
it.
-/

namespace LiveAudit.Url

/-- Refused code points from U+0080 on, as ranges with both ends. -/
def refusedRanges : List (Nat × Nat) := [
  (0x80, 0xA0), (0xA8, 0xA8), (0xAF, 0xAF), (0xB4, 0xB4), (0xB8, 0xB8), (0x2D8, 0x2DD),
  (0x378, 0x37A), (0x380, 0x385), (0x38B, 0x38B), (0x38D, 0x38D), (0x3A2, 0x3A2), (0x530, 0x530),
  (0x557, 0x558), (0x58B, 0x58C), (0x590, 0x590), (0x5C8, 0x5CF), (0x5EB, 0x5EE), (0x5F5, 0x605),
  (0x61C, 0x61C), (0x6DD, 0x6DD), (0x70E, 0x70F), (0x74B, 0x74C), (0x7B2, 0x7BF), (0x7FB, 0x7FC),
  (0x82E, 0x82F), (0x83F, 0x83F), (0x85C, 0x85D), (0x85F, 0x85F), (0x86B, 0x86F), (0x890, 0x896),
  (0x8E2, 0x8E2), (0x984, 0x984), (0x98D, 0x98E), (0x991, 0x992), (0x9A9, 0x9A9), (0x9B1, 0x9B1),
  (0x9B3, 0x9B5), (0x9BA, 0x9BB), (0x9C5, 0x9C6), (0x9C9, 0x9CA), (0x9CF, 0x9D6), (0x9D8, 0x9DB),
  (0x9DE, 0x9DE), (0x9E4, 0x9E5), (0x9FF, 0xA00), (0xA04, 0xA04), (0xA0B, 0xA0E), (0xA11, 0xA12),
  (0xA29, 0xA29), (0xA31, 0xA31), (0xA34, 0xA34), (0xA37, 0xA37), (0xA3A, 0xA3B), (0xA3D, 0xA3D),
  (0xA43, 0xA46), (0xA49, 0xA4A), (0xA4E, 0xA50), (0xA52, 0xA58), (0xA5D, 0xA5D), (0xA5F, 0xA65),
  (0xA77, 0xA80), (0xA84, 0xA84), (0xA8E, 0xA8E), (0xA92, 0xA92), (0xAA9, 0xAA9), (0xAB1, 0xAB1),
  (0xAB4, 0xAB4), (0xABA, 0xABB), (0xAC6, 0xAC6), (0xACA, 0xACA), (0xACE, 0xACF), (0xAD1, 0xADF),
  (0xAE4, 0xAE5), (0xAF2, 0xAF8), (0xB00, 0xB00), (0xB04, 0xB04), (0xB0D, 0xB0E), (0xB11, 0xB12),
  (0xB29, 0xB29), (0xB31, 0xB31), (0xB34, 0xB34), (0xB3A, 0xB3B), (0xB45, 0xB46), (0xB49, 0xB4A),
  (0xB4E, 0xB54), (0xB58, 0xB5B), (0xB5E, 0xB5E), (0xB64, 0xB65), (0xB78, 0xB81), (0xB84, 0xB84),
  (0xB8B, 0xB8D), (0xB91, 0xB91), (0xB96, 0xB98), (0xB9B, 0xB9B), (0xB9D, 0xB9D), (0xBA0, 0xBA2),
  (0xBA5, 0xBA7), (0xBAB, 0xBAD), (0xBBA, 0xBBD), (0xBC3, 0xBC5), (0xBC9, 0xBC9), (0xBCE, 0xBCF),
  (0xBD1, 0xBD6), (0xBD8, 0xBE5), (0xBFB, 0xBFF), (0xC0D, 0xC0D), (0xC11, 0xC11), (0xC29, 0xC29),
  (0xC3A, 0xC3B), (0xC45, 0xC45), (0xC49, 0xC49), (0xC4E, 0xC54), (0xC57, 0xC57), (0xC5B, 0xC5B),
  (0xC5E, 0xC5F), (0xC64, 0xC65), (0xC70, 0xC76), (0xC8D, 0xC8D), (0xC91, 0xC91), (0xCA9, 0xCA9),
  (0xCB4, 0xCB4), (0xCBA, 0xCBB), (0xCC5, 0xCC5), (0xCC9, 0xCC9), (0xCCE, 0xCD4), (0xCD7, 0xCDB),
  (0xCDF, 0xCDF), (0xCE4, 0xCE5), (0xCF0, 0xCF0), (0xCF4, 0xCFF), (0xD0D, 0xD0D), (0xD11, 0xD11),
  (0xD45, 0xD45), (0xD49, 0xD49), (0xD50, 0xD53), (0xD64, 0xD65), (0xD80, 0xD80), (0xD84, 0xD84),
  (0xD97, 0xD99), (0xDB2, 0xDB2), (0xDBC, 0xDBC), (0xDBE, 0xDBF), (0xDC7, 0xDC9), (0xDCB, 0xDCE),
  (0xDD5, 0xDD5), (0xDD7, 0xDD7), (0xDE0, 0xDE5), (0xDF0, 0xDF1), (0xDF5, 0xE00), (0xE3B, 0xE3E),
  (0xE5C, 0xE80), (0xE83, 0xE83), (0xE85, 0xE85), (0xE8B, 0xE8B), (0xEA4, 0xEA4), (0xEA6, 0xEA6),
  (0xEBE, 0xEBF), (0xEC5, 0xEC5), (0xEC7, 0xEC7), (0xECF, 0xECF), (0xEDA, 0xEDB), (0xEE0, 0xEFF),
  (0xF48, 0xF48), (0xF6D, 0xF70), (0xF98, 0xF98), (0xFBD, 0xFBD), (0xFCD, 0xFCD), (0xFDB, 0xFFF),
  (0x10C6, 0x10C6), (0x10C8, 0x10CC), (0x10CE, 0x10CF), (0x1249, 0x1249), (0x124E, 0x124F),
  (0x1257, 0x1257), (0x1259, 0x1259), (0x125E, 0x125F), (0x1289, 0x1289), (0x128E, 0x128F),
  (0x12B1, 0x12B1), (0x12B6, 0x12B7), (0x12BF, 0x12BF), (0x12C1, 0x12C1), (0x12C6, 0x12C7),
  (0x12D7, 0x12D7), (0x1311, 0x1311), (0x1316, 0x1317), (0x135B, 0x135C), (0x137D, 0x137F),
  (0x139A, 0x139F), (0x13F6, 0x13F7), (0x13FE, 0x13FF), (0x1680, 0x1680), (0x169D, 0x169F),
  (0x16F9, 0x16FF), (0x1716, 0x171E), (0x1737, 0x173F), (0x1754, 0x175F), (0x176D, 0x176D),
  (0x1771, 0x1771), (0x1774, 0x177F), (0x17DE, 0x17DF), (0x17EA, 0x17EF), (0x17FA, 0x17FF),
  (0x181A, 0x181F), (0x1879, 0x187F), (0x18AB, 0x18AF), (0x18F6, 0x18FF), (0x191F, 0x191F),
  (0x192C, 0x192F), (0x193C, 0x193F), (0x1941, 0x1943), (0x196E, 0x196F), (0x1975, 0x197F),
  (0x19AC, 0x19AF), (0x19CA, 0x19CF), (0x19DB, 0x19DD), (0x1A1C, 0x1A1D), (0x1A5F, 0x1A5F),
  (0x1A7D, 0x1A7E), (0x1A8A, 0x1A8F), (0x1A9A, 0x1A9F), (0x1AAE, 0x1AAF), (0x1ADE, 0x1ADF),
  (0x1AEC, 0x1AFF), (0x1B4D, 0x1B4D), (0x1BF4, 0x1BFB), (0x1C38, 0x1C3A), (0x1C4A, 0x1C4C),
  (0x1C8B, 0x1C8F), (0x1CBB, 0x1CBC), (0x1CC8, 0x1CCF), (0x1CFB, 0x1CFF), (0x1F16, 0x1F17),
  (0x1F1E, 0x1F1F), (0x1F46, 0x1F47), (0x1F4E, 0x1F4F), (0x1F58, 0x1F58), (0x1F5A, 0x1F5A),
  (0x1F5C, 0x1F5C), (0x1F5E, 0x1F5E), (0x1F7E, 0x1F7F), (0x1FB5, 0x1FB5), (0x1FBD, 0x1FBD),
  (0x1FBF, 0x1FC1), (0x1FC5, 0x1FC5), (0x1FCD, 0x1FCF), (0x1FD4, 0x1FD5), (0x1FDC, 0x1FDF),
  (0x1FED, 0x1FEE), (0x1FF0, 0x1FF1), (0x1FF5, 0x1FF5), (0x1FFD, 0x200A), (0x200C, 0x200F),
  (0x2017, 0x2017), (0x2024, 0x2026), (0x2028, 0x202F), (0x203E, 0x203E), (0x2047, 0x2049),
  (0x205F, 0x205F), (0x2065, 0x2069), (0x2072, 0x2073), (0x208F, 0x208F), (0x209D, 0x209F),
  (0x20C2, 0x20CF), (0x20F1, 0x2101), (0x2105, 0x2106), (0x218C, 0x218F), (0x242A, 0x243F),
  (0x244B, 0x245F), (0x2488, 0x249B), (0x2A74, 0x2A74), (0x2B74, 0x2B75), (0x2CF4, 0x2CF8),
  (0x2D26, 0x2D26), (0x2D28, 0x2D2C), (0x2D2E, 0x2D2F), (0x2D68, 0x2D6E), (0x2D71, 0x2D7E),
  (0x2D97, 0x2D9F), (0x2DA7, 0x2DA7), (0x2DAF, 0x2DAF), (0x2DB7, 0x2DB7), (0x2DBF, 0x2DBF),
  (0x2DC7, 0x2DC7), (0x2DCF, 0x2DCF), (0x2DD7, 0x2DD7), (0x2DDF, 0x2DDF), (0x2E5E, 0x2E7F),
  (0x2E9A, 0x2E9A), (0x2EF4, 0x2EFF), (0x2FD6, 0x3000), (0x3040, 0x3040), (0x3097, 0x3098),
  (0x309B, 0x309C), (0x3100, 0x3104), (0x3130, 0x3130), (0x318F, 0x318F), (0x31E6, 0x31EF),
  (0x321F, 0x321F), (0x33C2, 0x33C2), (0x33C7, 0x33C7), (0x33D8, 0x33D8), (0xA48D, 0xA48F),
  (0xA4C7, 0xA4CF), (0xA62C, 0xA63F), (0xA6F8, 0xA6FF), (0xA7DD, 0xA7F0), (0xA82D, 0xA82F),
  (0xA83A, 0xA83F), (0xA878, 0xA87F), (0xA8C6, 0xA8CD), (0xA8DA, 0xA8DF), (0xA954, 0xA95E),
  (0xA97D, 0xA97F), (0xA9CE, 0xA9CE), (0xA9DA, 0xA9DD), (0xA9FF, 0xA9FF), (0xAA37, 0xAA3F),
  (0xAA4E, 0xAA4F), (0xAA5A, 0xAA5B), (0xAAC3, 0xAADA), (0xAAF7, 0xAB00), (0xAB07, 0xAB08),
  (0xAB0F, 0xAB10), (0xAB17, 0xAB1F), (0xAB27, 0xAB27), (0xAB2F, 0xAB2F), (0xAB6C, 0xAB6F),
  (0xABEE, 0xABEF), (0xABFA, 0xABFF), (0xD7A4, 0xD7AF), (0xD7C7, 0xD7CA), (0xD7FC, 0xF8FF),
  (0xFA6E, 0xFA6F), (0xFADA, 0xFAFF), (0xFB07, 0xFB12), (0xFB18, 0xFB1C), (0xFB37, 0xFB37),
  (0xFB3D, 0xFB3D), (0xFB3F, 0xFB3F), (0xFB42, 0xFB42), (0xFB45, 0xFB45), (0xFC5E, 0xFC63),
  (0xFDD0, 0xFDEF), (0xFDFA, 0xFDFB), (0xFE12, 0xFE13), (0xFE16, 0xFE16), (0xFE19, 0xFE1F),
  (0xFE30, 0xFE30), (0xFE47, 0xFE4C), (0xFE52, 0xFE53), (0xFE55, 0xFE56), (0xFE5F, 0xFE5F),
  (0xFE64, 0xFE65), (0xFE67, 0xFE68), (0xFE6A, 0xFE70), (0xFE72, 0xFE72), (0xFE74, 0xFE76),
  (0xFE78, 0xFE78), (0xFE7A, 0xFE7A), (0xFE7C, 0xFE7C), (0xFE7E, 0xFE7E), (0xFEFD, 0xFEFE),
  (0xFF00, 0xFF00), (0xFF03, 0xFF03), (0xFF05, 0xFF05), (0xFF0F, 0xFF0F), (0xFF1A, 0xFF1A),
  (0xFF1C, 0xFF1C), (0xFF1E, 0xFF20), (0xFF3B, 0xFF3E), (0xFF5C, 0xFF5C), (0xFFBF, 0xFFC1),
  (0xFFC8, 0xFFC9), (0xFFD0, 0xFFD1), (0xFFD8, 0xFFD9), (0xFFDD, 0xFFDF), (0xFFE3, 0xFFE3),
  (0xFFE7, 0xFFE7), (0xFFEF, 0xFFFF), (0x1000C, 0x1000C), (0x10027, 0x10027), (0x1003B, 0x1003B),
  (0x1003E, 0x1003E), (0x1004E, 0x1004F), (0x1005E, 0x1007F), (0x100FB, 0x100FF),
  (0x10103, 0x10106), (0x10134, 0x10136), (0x1018F, 0x1018F), (0x1019D, 0x1019F),
  (0x101A1, 0x101CF), (0x101FE, 0x1027F), (0x1029D, 0x1029F), (0x102D1, 0x102DF),
  (0x102FC, 0x102FF), (0x10324, 0x1032C), (0x1034B, 0x1034F), (0x1037B, 0x1037F),
  (0x1039E, 0x1039E), (0x103C4, 0x103C7), (0x103D6, 0x103FF), (0x1049E, 0x1049F),
  (0x104AA, 0x104AF), (0x104D4, 0x104D7), (0x104FC, 0x104FF), (0x10528, 0x1052F),
  (0x10564, 0x1056E), (0x1057B, 0x1057B), (0x1058B, 0x1058B), (0x10593, 0x10593),
  (0x10596, 0x10596), (0x105A2, 0x105A2), (0x105B2, 0x105B2), (0x105BA, 0x105BA),
  (0x105BD, 0x105BF), (0x105F4, 0x105FF), (0x10737, 0x1073F), (0x10756, 0x1075F),
  (0x10768, 0x1077F), (0x10786, 0x10786), (0x107B1, 0x107B1), (0x107BB, 0x107FF),
  (0x10806, 0x10807), (0x10809, 0x10809), (0x10836, 0x10836), (0x10839, 0x1083B),
  (0x1083D, 0x1083E), (0x10856, 0x10856), (0x1089F, 0x108A6), (0x108B0, 0x108DF),
  (0x108F3, 0x108F3), (0x108F6, 0x108FA), (0x1091C, 0x1091E), (0x1093A, 0x1093E),
  (0x1095A, 0x1097F), (0x109B8, 0x109BB), (0x109D0, 0x109D1), (0x10A04, 0x10A04),
  (0x10A07, 0x10A0B), (0x10A14, 0x10A14), (0x10A18, 0x10A18), (0x10A36, 0x10A37),
  (0x10A3B, 0x10A3E), (0x10A49, 0x10A4F), (0x10A59, 0x10A5F), (0x10AA0, 0x10ABF),
  (0x10AE7, 0x10AEA), (0x10AF7, 0x10AFF), (0x10B36, 0x10B38), (0x10B56, 0x10B57),
  (0x10B73, 0x10B77), (0x10B92, 0x10B98), (0x10B9D, 0x10BA8), (0x10BB0, 0x10BFF),
  (0x10C49, 0x10C7F), (0x10CB3, 0x10CBF), (0x10CF3, 0x10CF9), (0x10D28, 0x10D2F),
  (0x10D3A, 0x10D3F), (0x10D66, 0x10D68), (0x10D86, 0x10D8D), (0x10D90, 0x10E5F),
  (0x10E7F, 0x10E7F), (0x10EAA, 0x10EAA), (0x10EAE, 0x10EAF), (0x10EB2, 0x10EC1),
  (0x10EC8, 0x10ECF), (0x10ED9, 0x10EF9), (0x10F28, 0x10F2F), (0x10F5A, 0x10F6F),
  (0x10F8A, 0x10FAF), (0x10FCC, 0x10FDF), (0x10FF7, 0x10FFF), (0x1104E, 0x11051),
  (0x11076, 0x1107E), (0x110BD, 0x110BD), (0x110C3, 0x110CF), (0x110E9, 0x110EF),
  (0x110FA, 0x110FF), (0x11135, 0x11135), (0x11148, 0x1114F), (0x11177, 0x1117F),
  (0x111E0, 0x111E0), (0x111F5, 0x111FF), (0x11212, 0x11212), (0x11242, 0x1127F),
  (0x11287, 0x11287), (0x11289, 0x11289), (0x1128E, 0x1128E), (0x1129E, 0x1129E),
  (0x112AA, 0x112AF), (0x112EB, 0x112EF), (0x112FA, 0x112FF), (0x11304, 0x11304),
  (0x1130D, 0x1130E), (0x11311, 0x11312), (0x11329, 0x11329), (0x11331, 0x11331),
  (0x11334, 0x11334), (0x1133A, 0x1133A), (0x11345, 0x11346), (0x11349, 0x1134A),
  (0x1134E, 0x1134F), (0x11351, 0x11356), (0x11358, 0x1135C), (0x11364, 0x11365),
  (0x1136D, 0x1136F), (0x11375, 0x1137F), (0x1138A, 0x1138A), (0x1138C, 0x1138D),
  (0x1138F, 0x1138F), (0x113B6, 0x113B6), (0x113C1, 0x113C1), (0x113C3, 0x113C4),
  (0x113C6, 0x113C6), (0x113CB, 0x113CB), (0x113D6, 0x113D6), (0x113D9, 0x113E0),
  (0x113E3, 0x113FF), (0x1145C, 0x1145C), (0x11462, 0x1147F), (0x114C8, 0x114CF),
  (0x114DA, 0x1157F), (0x115B6, 0x115B7), (0x115DE, 0x115FF), (0x11645, 0x1164F),
  (0x1165A, 0x1165F), (0x1166D, 0x1167F), (0x116BA, 0x116BF), (0x116CA, 0x116CF),
  (0x116E4, 0x116FF), (0x1171B, 0x1171C), (0x1172C, 0x1172F), (0x11747, 0x117FF),
  (0x1183C, 0x1189F), (0x118F3, 0x118FE), (0x11907, 0x11908), (0x1190A, 0x1190B),
  (0x11914, 0x11914), (0x11917, 0x11917), (0x11936, 0x11936), (0x11939, 0x1193A),
  (0x11947, 0x1194F), (0x1195A, 0x1199F), (0x119A8, 0x119A9), (0x119D8, 0x119D9),
  (0x119E5, 0x119FF), (0x11A48, 0x11A4F), (0x11AA3, 0x11AAF), (0x11AF9, 0x11AFF),
  (0x11B0A, 0x11B5F), (0x11B68, 0x11BBF), (0x11BE2, 0x11BEF), (0x11BFA, 0x11BFF),
  (0x11C09, 0x11C09), (0x11C37, 0x11C37), (0x11C46, 0x11C4F), (0x11C6D, 0x11C6F),
  (0x11C90, 0x11C91), (0x11CA8, 0x11CA8), (0x11CB7, 0x11CFF), (0x11D07, 0x11D07),
  (0x11D0A, 0x11D0A), (0x11D37, 0x11D39), (0x11D3B, 0x11D3B), (0x11D3E, 0x11D3E),
  (0x11D48, 0x11D4F), (0x11D5A, 0x11D5F), (0x11D66, 0x11D66), (0x11D69, 0x11D69),
  (0x11D8F, 0x11D8F), (0x11D92, 0x11D92), (0x11D99, 0x11D9F), (0x11DAA, 0x11DAF),
  (0x11DDC, 0x11DDF), (0x11DEA, 0x11EDF), (0x11EF9, 0x11EFF), (0x11F11, 0x11F11),
  (0x11F3B, 0x11F3D), (0x11F5B, 0x11FAF), (0x11FB1, 0x11FBF), (0x11FF2, 0x11FFE),
  (0x1239A, 0x123FF), (0x1246F, 0x1246F), (0x12475, 0x1247F), (0x12544, 0x12F8F),
  (0x12FF3, 0x12FFF), (0x13430, 0x1343F), (0x13456, 0x1345F), (0x143FB, 0x143FF),
  (0x14647, 0x160FF), (0x1613A, 0x167FF), (0x16A39, 0x16A3F), (0x16A5F, 0x16A5F),
  (0x16A6A, 0x16A6D), (0x16ABF, 0x16ABF), (0x16ACA, 0x16ACF), (0x16AEE, 0x16AEF),
  (0x16AF6, 0x16AFF), (0x16B46, 0x16B4F), (0x16B5A, 0x16B5A), (0x16B62, 0x16B62),
  (0x16B78, 0x16B7C), (0x16B90, 0x16D3F), (0x16D7A, 0x16E3F), (0x16E9B, 0x16E9F),
  (0x16EB9, 0x16EBA), (0x16ED4, 0x16EFF), (0x16F4B, 0x16F4E), (0x16F88, 0x16F8E),
  (0x16FA0, 0x16FDF), (0x16FE5, 0x16FEF), (0x16FF7, 0x16FFF), (0x18CD6, 0x18CFE),
  (0x18D1F, 0x18D7F), (0x18DF3, 0x1AFEF), (0x1AFF4, 0x1AFF4), (0x1AFFC, 0x1AFFC),
  (0x1AFFF, 0x1AFFF), (0x1B123, 0x1B131), (0x1B133, 0x1B14F), (0x1B153, 0x1B154),
  (0x1B156, 0x1B163), (0x1B168, 0x1B16F), (0x1B2FC, 0x1BBFF), (0x1BC6B, 0x1BC6F),
  (0x1BC7D, 0x1BC7F), (0x1BC89, 0x1BC8F), (0x1BC9A, 0x1BC9B), (0x1BCA4, 0x1CBFF),
  (0x1CCFD, 0x1CCFF), (0x1CEB4, 0x1CEB9), (0x1CED1, 0x1CEDF), (0x1CEF1, 0x1CEFF),
  (0x1CF2E, 0x1CF2F), (0x1CF47, 0x1CF4F), (0x1CFC4, 0x1CFFF), (0x1D0F6, 0x1D0FF),
  (0x1D127, 0x1D128), (0x1D1EB, 0x1D1FF), (0x1D246, 0x1D2BF), (0x1D2D4, 0x1D2DF),
  (0x1D2F4, 0x1D2FF), (0x1D357, 0x1D35F), (0x1D379, 0x1D3FF), (0x1D455, 0x1D455),
  (0x1D49D, 0x1D49D), (0x1D4A0, 0x1D4A1), (0x1D4A3, 0x1D4A4), (0x1D4A7, 0x1D4A8),
  (0x1D4AD, 0x1D4AD), (0x1D4BA, 0x1D4BA), (0x1D4BC, 0x1D4BC), (0x1D4C4, 0x1D4C4),
  (0x1D506, 0x1D506), (0x1D50B, 0x1D50C), (0x1D515, 0x1D515), (0x1D51D, 0x1D51D),
  (0x1D53A, 0x1D53A), (0x1D53F, 0x1D53F), (0x1D545, 0x1D545), (0x1D547, 0x1D549),
  (0x1D551, 0x1D551), (0x1D6A6, 0x1D6A7), (0x1D7CC, 0x1D7CD), (0x1DA8C, 0x1DA9A),
  (0x1DAA0, 0x1DAA0), (0x1DAB0, 0x1DEFF), (0x1DF1F, 0x1DF24), (0x1DF2B, 0x1DFFF),
  (0x1E007, 0x1E007), (0x1E019, 0x1E01A), (0x1E022, 0x1E022), (0x1E025, 0x1E025),
  (0x1E02B, 0x1E02F), (0x1E06E, 0x1E08E), (0x1E090, 0x1E0FF), (0x1E12D, 0x1E12F),
  (0x1E13E, 0x1E13F), (0x1E14A, 0x1E14D), (0x1E150, 0x1E28F), (0x1E2AF, 0x1E2BF),
  (0x1E2FA, 0x1E2FE), (0x1E300, 0x1E4CF), (0x1E4FA, 0x1E5CF), (0x1E5FB, 0x1E5FE),
  (0x1E600, 0x1E6BF), (0x1E6DF, 0x1E6DF), (0x1E6F6, 0x1E6FD), (0x1E700, 0x1E7DF),
  (0x1E7E7, 0x1E7E7), (0x1E7EC, 0x1E7EC), (0x1E7EF, 0x1E7EF), (0x1E7FF, 0x1E7FF),
  (0x1E8C5, 0x1E8C6), (0x1E8D7, 0x1E8FF), (0x1E94C, 0x1E94F), (0x1E95A, 0x1E95D),
  (0x1E960, 0x1EC70), (0x1ECB5, 0x1ED00), (0x1ED3E, 0x1EDFF), (0x1EE04, 0x1EE04),
  (0x1EE20, 0x1EE20), (0x1EE23, 0x1EE23), (0x1EE25, 0x1EE26), (0x1EE28, 0x1EE28),
  (0x1EE33, 0x1EE33), (0x1EE38, 0x1EE38), (0x1EE3A, 0x1EE3A), (0x1EE3C, 0x1EE41),
  (0x1EE43, 0x1EE46), (0x1EE48, 0x1EE48), (0x1EE4A, 0x1EE4A), (0x1EE4C, 0x1EE4C),
  (0x1EE50, 0x1EE50), (0x1EE53, 0x1EE53), (0x1EE55, 0x1EE56), (0x1EE58, 0x1EE58),
  (0x1EE5A, 0x1EE5A), (0x1EE5C, 0x1EE5C), (0x1EE5E, 0x1EE5E), (0x1EE60, 0x1EE60),
  (0x1EE63, 0x1EE63), (0x1EE65, 0x1EE66), (0x1EE6B, 0x1EE6B), (0x1EE73, 0x1EE73),
  (0x1EE78, 0x1EE78), (0x1EE7D, 0x1EE7D), (0x1EE7F, 0x1EE7F), (0x1EE8A, 0x1EE8A),
  (0x1EE9C, 0x1EEA0), (0x1EEA4, 0x1EEA4), (0x1EEAA, 0x1EEAA), (0x1EEBC, 0x1EEEF),
  (0x1EEF2, 0x1EFFF), (0x1F02C, 0x1F02F), (0x1F094, 0x1F09F), (0x1F0AF, 0x1F0B0),
  (0x1F0C0, 0x1F0C0), (0x1F0D0, 0x1F0D0), (0x1F0F6, 0x1F100), (0x1F1AE, 0x1F1E5),
  (0x1F203, 0x1F20F), (0x1F23C, 0x1F23F), (0x1F249, 0x1F24F), (0x1F252, 0x1F25F),
  (0x1F266, 0x1F2FF), (0x1F6D9, 0x1F6DB), (0x1F6ED, 0x1F6EF), (0x1F6FD, 0x1F6FF),
  (0x1F7DA, 0x1F7DF), (0x1F7EC, 0x1F7EF), (0x1F7F1, 0x1F7FF), (0x1F80C, 0x1F80F),
  (0x1F848, 0x1F84F), (0x1F85A, 0x1F85F), (0x1F888, 0x1F88F), (0x1F8AE, 0x1F8AF),
  (0x1F8BC, 0x1F8BF), (0x1F8C2, 0x1F8CF), (0x1F8D9, 0x1F8FF), (0x1FA58, 0x1FA5F),
  (0x1FA6E, 0x1FA6F), (0x1FA7D, 0x1FA7F), (0x1FA8B, 0x1FA8D), (0x1FAC7, 0x1FAC7),
  (0x1FAC9, 0x1FACC), (0x1FADD, 0x1FADE), (0x1FAEB, 0x1FAEE), (0x1FAF9, 0x1FAFF),
  (0x1FB93, 0x1FB93), (0x1FBFB, 0x1FFFF), (0x2A6E0, 0x2A6FF), (0x2B81E, 0x2B81F),
  (0x2CEAE, 0x2CEAF), (0x2EBE1, 0x2EBEF), (0x2EE5E, 0x2F7FF), (0x2FA1E, 0x2FFFF),
  (0x3134B, 0x3134F), (0x3347A, 0xE00FF), (0xE01F0, 0x10FFFF)
]

/-- Code points that are passed over, as ranges with both ends. -/
def ignoredRanges : List (Nat × Nat) := [
  (0xAD, 0xAD), (0x34F, 0x34F), (0x115F, 0x1160), (0x17B4, 0x17B5), (0x180B, 0x180F),
  (0x200B, 0x200B), (0x2060, 0x2064), (0x206A, 0x206F), (0x3164, 0x3164), (0xFE00, 0xFE0F),
  (0xFEFF, 0xFEFF), (0xFFA0, 0xFFA0), (0x1BCA0, 0x1BCA3), (0x1D173, 0x1D17A), (0xE0100, 0xE01EF)
]

/-- Code points replaced one by one, from `first` on at every `step`, by those from `target` on at
every `targetStep`. -/
structure Replacement where
  first : Nat
  count : Nat
  step : Nat
  targetStep : Nat
  target : Nat

def Replacement.find? (r : Replacement) (n : Nat) : Option Char :=
  if r.first ≤ n ∧ n < r.first + r.count * r.step ∧ (n - r.first) % r.step = 0 then
    some (Char.ofNat (r.target + (n - r.first) / r.step * r.targetStep))
  else none

def replacements : List Replacement := [
  ⟨0xC0, 23, 1, 1, 0xE0⟩, ⟨0xD8, 7, 1, 1, 0xF8⟩, ⟨0x100, 24, 2, 2, 0x101⟩, ⟨0x139, 3, 2, 2, 0x13A⟩,
  ⟨0x141, 4, 2, 2, 0x142⟩, ⟨0x14A, 23, 2, 2, 0x14B⟩, ⟨0x179, 3, 2, 2, 0x17A⟩,
  ⟨0x1A0, 3, 2, 2, 0x1A1⟩, ⟨0x1CD, 8, 2, 2, 0x1CE⟩, ⟨0x1DE, 9, 2, 2, 0x1DF⟩,
  ⟨0x1F8, 20, 2, 2, 0x1F9⟩, ⟨0x222, 9, 2, 2, 0x223⟩, ⟨0x246, 5, 2, 2, 0x247⟩,
  ⟨0x388, 3, 1, 1, 0x3AD⟩, ⟨0x391, 17, 1, 1, 0x3B1⟩, ⟨0x3A3, 9, 1, 1, 0x3C3⟩,
  ⟨0x3D8, 12, 2, 2, 0x3D9⟩, ⟨0x3FD, 3, 1, 1, 0x37B⟩, ⟨0x400, 16, 1, 1, 0x450⟩,
  ⟨0x410, 32, 1, 1, 0x430⟩, ⟨0x460, 17, 2, 2, 0x461⟩, ⟨0x48A, 27, 2, 2, 0x48B⟩,
  ⟨0x4C1, 7, 2, 2, 0x4C2⟩, ⟨0x4D0, 48, 2, 2, 0x4D1⟩, ⟨0x531, 38, 1, 1, 0x561⟩,
  ⟨0x10A0, 38, 1, 1, 0x2D00⟩, ⟨0x13F8, 6, 1, 1, 0x13F0⟩, ⟨0x1C90, 43, 1, 1, 0x10D0⟩,
  ⟨0x1CBD, 3, 1, 1, 0x10FD⟩, ⟨0x1D31, 5, 2, 2, 0x65⟩, ⟨0x1D34, 4, 2, 2, 0x68⟩,
  ⟨0x1D5D, 3, 1, 1, 0x3B2⟩, ⟨0x1DA4, 3, 1, 1, 0x268⟩, ⟨0x1DAE, 4, 1, 1, 0x272⟩,
  ⟨0x1DBC, 3, 1, 1, 0x290⟩, ⟨0x1E00, 75, 2, 2, 0x1E01⟩, ⟨0x1EA0, 48, 2, 2, 0x1EA1⟩,
  ⟨0x1F08, 8, 1, 1, 0x1F00⟩, ⟨0x1F18, 6, 1, 1, 0x1F10⟩, ⟨0x1F28, 8, 1, 1, 0x1F20⟩,
  ⟨0x1F38, 8, 1, 1, 0x1F30⟩, ⟨0x1F48, 6, 1, 1, 0x1F40⟩, ⟨0x1F59, 4, 2, 2, 0x1F51⟩,
  ⟨0x1F68, 8, 1, 1, 0x1F60⟩, ⟨0x2000, 11, 1, 0, 0x20⟩, ⟨0x2074, 6, 1, 1, 0x34⟩,
  ⟨0x2080, 10, 1, 1, 0x30⟩, ⟨0x2096, 4, 1, 1, 0x6B⟩, ⟨0x210C, 3, 1, 0, 0x68⟩,
  ⟨0x2119, 3, 1, 1, 0x70⟩, ⟨0x2135, 4, 1, 1, 0x5D0⟩, ⟨0x2460, 9, 1, 1, 0x31⟩,
  ⟨0x24B6, 26, 1, 1, 0x61⟩, ⟨0x24D0, 26, 1, 1, 0x61⟩, ⟨0x2C00, 48, 1, 1, 0x2C30⟩,
  ⟨0x2C67, 3, 2, 2, 0x2C68⟩, ⟨0x2C80, 50, 2, 2, 0x2C81⟩, ⟨0x3137, 3, 1, 1, 0x1103⟩,
  ⟨0x313A, 6, 1, 1, 0x11B0⟩, ⟨0x3141, 3, 1, 1, 0x1106⟩, ⟨0x3145, 10, 1, 1, 0x1109⟩,
  ⟨0x314F, 21, 1, 1, 0x1161⟩, ⟨0x3178, 5, 1, 1, 0x112B⟩, ⟨0x3184, 3, 1, 1, 0x1157⟩,
  ⟨0x3263, 3, 1, 1, 0x1105⟩, ⟨0x3269, 5, 1, 1, 0x110E⟩, ⟨0x32E4, 6, 1, 1, 0x30CA⟩,
  ⟨0x32EE, 5, 1, 1, 0x30DE⟩, ⟨0x32F5, 6, 1, 1, 0x30E8⟩, ⟨0x32FB, 4, 1, 1, 0x30EF⟩,
  ⟨0xA640, 23, 2, 2, 0xA641⟩, ⟨0xA680, 14, 2, 2, 0xA681⟩, ⟨0xA722, 7, 2, 2, 0xA723⟩,
  ⟨0xA732, 31, 2, 2, 0xA733⟩, ⟨0xA77E, 5, 2, 2, 0xA77F⟩, ⟨0xA796, 10, 2, 2, 0xA797⟩,
  ⟨0xA7B4, 8, 2, 2, 0xA7B5⟩, ⟨0xA7CC, 8, 2, 2, 0xA7CD⟩, ⟨0xAB70, 80, 1, 1, 0x13A0⟩,
  ⟨0xFB24, 3, 1, 1, 0x5DB⟩, ⟨0xFB52, 4, 1, 0, 0x67B⟩, ⟨0xFB56, 4, 1, 0, 0x67E⟩,
  ⟨0xFB5A, 4, 1, 0, 0x680⟩, ⟨0xFB5E, 4, 1, 0, 0x67A⟩, ⟨0xFB62, 4, 1, 0, 0x67F⟩,
  ⟨0xFB66, 4, 1, 0, 0x679⟩, ⟨0xFB6A, 4, 1, 0, 0x6A4⟩, ⟨0xFB6E, 4, 1, 0, 0x6A6⟩,
  ⟨0xFB72, 4, 1, 0, 0x684⟩, ⟨0xFB76, 4, 1, 0, 0x683⟩, ⟨0xFB7A, 4, 1, 0, 0x686⟩,
  ⟨0xFB7E, 4, 1, 0, 0x687⟩, ⟨0xFB8E, 4, 1, 0, 0x6A9⟩, ⟨0xFB92, 4, 1, 0, 0x6AF⟩,
  ⟨0xFB96, 4, 1, 0, 0x6B3⟩, ⟨0xFB9A, 4, 1, 0, 0x6B1⟩, ⟨0xFBA0, 4, 1, 0, 0x6BB⟩,
  ⟨0xFBA6, 4, 1, 0, 0x6C1⟩, ⟨0xFBAA, 4, 1, 0, 0x6BE⟩, ⟨0xFBD3, 4, 1, 0, 0x6AD⟩,
  ⟨0xFBE4, 4, 1, 0, 0x6D0⟩, ⟨0xFBFC, 4, 1, 0, 0x6CC⟩, ⟨0xFE41, 4, 1, 1, 0x300C⟩,
  ⟨0xFE4D, 3, 1, 0, 0x5F⟩, ⟨0xFE8A, 3, 1, 0, 0x626⟩, ⟨0xFE8F, 4, 1, 0, 0x628⟩,
  ⟨0xFE95, 4, 1, 0, 0x62A⟩, ⟨0xFE99, 4, 1, 0, 0x62B⟩, ⟨0xFE9D, 4, 1, 0, 0x62C⟩,
  ⟨0xFEA1, 4, 1, 0, 0x62D⟩, ⟨0xFEA5, 4, 1, 0, 0x62E⟩, ⟨0xFEB1, 4, 1, 0, 0x633⟩,
  ⟨0xFEB5, 4, 1, 0, 0x634⟩, ⟨0xFEB9, 4, 1, 0, 0x635⟩, ⟨0xFEBD, 4, 1, 0, 0x636⟩,
  ⟨0xFEC1, 4, 1, 0, 0x637⟩, ⟨0xFEC5, 4, 1, 0, 0x638⟩, ⟨0xFEC9, 4, 1, 0, 0x639⟩,
  ⟨0xFECD, 4, 1, 0, 0x63A⟩, ⟨0xFED1, 4, 1, 0, 0x641⟩, ⟨0xFED5, 4, 1, 0, 0x642⟩,
  ⟨0xFED9, 4, 1, 0, 0x643⟩, ⟨0xFEDD, 4, 1, 0, 0x644⟩, ⟨0xFEE1, 4, 1, 0, 0x645⟩,
  ⟨0xFEE5, 4, 1, 0, 0x646⟩, ⟨0xFEE9, 4, 1, 0, 0x647⟩, ⟨0xFEF1, 4, 1, 0, 0x64A⟩,
  ⟨0xFF01, 32, 1, 1, 0x21⟩, ⟨0xFF21, 26, 1, 1, 0x61⟩, ⟨0xFF3B, 36, 1, 1, 0x5B⟩,
  ⟨0xFF85, 6, 1, 1, 0x30CA⟩, ⟨0xFF8F, 5, 1, 1, 0x30DE⟩, ⟨0xFF96, 6, 1, 1, 0x30E8⟩,
  ⟨0xFFA7, 3, 1, 1, 0x1103⟩, ⟨0xFFAA, 6, 1, 1, 0x11B0⟩, ⟨0xFFB1, 3, 1, 1, 0x1106⟩,
  ⟨0xFFB5, 10, 1, 1, 0x1109⟩, ⟨0xFFC2, 6, 1, 1, 0x1161⟩, ⟨0xFFCA, 6, 1, 1, 0x1167⟩,
  ⟨0xFFD2, 6, 1, 1, 0x116D⟩, ⟨0xFFDA, 3, 1, 1, 0x1173⟩, ⟨0xFFE9, 4, 1, 1, 0x2190⟩,
  ⟨0x10400, 40, 1, 1, 0x10428⟩, ⟨0x104B0, 36, 1, 1, 0x104D8⟩, ⟨0x10570, 19, 2, 2, 0x10597⟩,
  ⟨0x10571, 5, 2, 2, 0x10598⟩, ⟨0x1057D, 7, 2, 2, 0x105A4⟩, ⟨0x1058D, 3, 2, 2, 0x105B4⟩,
  ⟨0x107B6, 3, 1, 1, 0x1C0⟩, ⟨0x10C80, 51, 1, 1, 0x10CC0⟩, ⟨0x10D50, 22, 1, 1, 0x10D70⟩,
  ⟨0x118A0, 32, 1, 1, 0x118C0⟩, ⟨0x16E40, 32, 1, 1, 0x16E60⟩, ⟨0x16EA0, 25, 1, 1, 0x16EBB⟩,
  ⟨0x1CCD6, 26, 1, 1, 0x61⟩, ⟨0x1CCF0, 10, 1, 1, 0x30⟩, ⟨0x1D400, 26, 1, 1, 0x61⟩,
  ⟨0x1D41A, 26, 1, 1, 0x61⟩, ⟨0x1D434, 26, 1, 1, 0x61⟩, ⟨0x1D44E, 13, 2, 2, 0x61⟩,
  ⟨0x1D44F, 3, 2, 2, 0x62⟩, ⟨0x1D457, 9, 2, 2, 0x6A⟩, ⟨0x1D468, 26, 1, 1, 0x61⟩,
  ⟨0x1D482, 26, 1, 1, 0x61⟩, ⟨0x1D4A9, 4, 1, 1, 0x6E⟩, ⟨0x1D4AE, 8, 1, 1, 0x73⟩,
  ⟨0x1D4B6, 4, 1, 1, 0x61⟩, ⟨0x1D4BB, 11, 2, 2, 0x66⟩, ⟨0x1D4BE, 3, 2, 2, 0x69⟩,
  ⟨0x1D4C6, 5, 2, 2, 0x71⟩, ⟨0x1D4D0, 26, 1, 1, 0x61⟩, ⟨0x1D4EA, 26, 1, 1, 0x61⟩,
  ⟨0x1D507, 4, 1, 1, 0x64⟩, ⟨0x1D50D, 8, 1, 1, 0x6A⟩, ⟨0x1D516, 7, 1, 1, 0x73⟩,
  ⟨0x1D51E, 26, 1, 1, 0x61⟩, ⟨0x1D53B, 4, 1, 1, 0x64⟩, ⟨0x1D540, 5, 1, 1, 0x69⟩,
  ⟨0x1D54A, 7, 1, 1, 0x73⟩, ⟨0x1D552, 26, 1, 1, 0x61⟩, ⟨0x1D56C, 26, 1, 1, 0x61⟩,
  ⟨0x1D586, 26, 1, 1, 0x61⟩, ⟨0x1D5A0, 26, 1, 1, 0x61⟩, ⟨0x1D5BA, 26, 1, 1, 0x61⟩,
  ⟨0x1D5D4, 26, 1, 1, 0x61⟩, ⟨0x1D5EE, 26, 1, 1, 0x61⟩, ⟨0x1D608, 26, 1, 1, 0x61⟩,
  ⟨0x1D622, 26, 1, 1, 0x61⟩, ⟨0x1D63C, 26, 1, 1, 0x61⟩, ⟨0x1D656, 26, 1, 1, 0x61⟩,
  ⟨0x1D670, 26, 1, 1, 0x61⟩, ⟨0x1D68A, 26, 1, 1, 0x61⟩, ⟨0x1D6A8, 17, 1, 1, 0x3B1⟩,
  ⟨0x1D6BA, 7, 1, 1, 0x3C3⟩, ⟨0x1D6C2, 17, 1, 1, 0x3B1⟩, ⟨0x1D6D5, 6, 1, 1, 0x3C4⟩,
  ⟨0x1D6E2, 17, 1, 1, 0x3B1⟩, ⟨0x1D6F4, 7, 1, 1, 0x3C3⟩, ⟨0x1D6FC, 17, 1, 1, 0x3B1⟩,
  ⟨0x1D70F, 6, 1, 1, 0x3C4⟩, ⟨0x1D71C, 17, 1, 1, 0x3B1⟩, ⟨0x1D72E, 7, 1, 1, 0x3C3⟩,
  ⟨0x1D736, 17, 1, 1, 0x3B1⟩, ⟨0x1D749, 6, 1, 1, 0x3C4⟩, ⟨0x1D756, 17, 1, 1, 0x3B1⟩,
  ⟨0x1D768, 7, 1, 1, 0x3C3⟩, ⟨0x1D770, 17, 1, 1, 0x3B1⟩, ⟨0x1D783, 6, 1, 1, 0x3C4⟩,
  ⟨0x1D790, 17, 1, 1, 0x3B1⟩, ⟨0x1D7A2, 7, 1, 1, 0x3C3⟩, ⟨0x1D7AA, 17, 1, 1, 0x3B1⟩,
  ⟨0x1D7BD, 6, 1, 1, 0x3C4⟩, ⟨0x1D7CE, 10, 1, 1, 0x30⟩, ⟨0x1D7D8, 10, 1, 1, 0x30⟩,
  ⟨0x1D7E2, 10, 1, 1, 0x30⟩, ⟨0x1D7EC, 10, 1, 1, 0x30⟩, ⟨0x1D7F6, 10, 1, 1, 0x30⟩,
  ⟨0x1E030, 9, 1, 1, 0x430⟩, ⟨0x1E039, 3, 1, 1, 0x43A⟩, ⟨0x1E03C, 11, 1, 1, 0x43E⟩,
  ⟨0x1E051, 9, 1, 1, 0x430⟩, ⟨0x1E05F, 6, 1, 1, 0x443⟩, ⟨0x1E900, 34, 1, 1, 0x1E922⟩,
  ⟨0x1EE0A, 4, 1, 1, 0x643⟩, ⟨0x1EE2A, 4, 1, 1, 0x643⟩, ⟨0x1EE8B, 3, 1, 1, 0x644⟩,
  ⟨0x1EEAB, 3, 1, 1, 0x644⟩, ⟨0x1F130, 26, 1, 1, 0x61⟩, ⟨0x1FBF0, 10, 1, 1, 0x30⟩
]

/-- Code points replaced each by a text of its own. -/
def spellings : List (Nat × String) := [
  (0xAA, "a"), (0xB2, "2"), (0xB3, "3"), (0xB5, "\u03bc"), (0xB9, "1"), (0xBA, "o"),
  (0xBC, "1\u20444"), (0xBD, "1\u20442"), (0xBE, "3\u20444"), (0x130, "i\u0307"), (0x132, "ij"),
  (0x133, "ij"), (0x134, "\u0135"), (0x136, "\u0137"), (0x13F, "l\u00b7"), (0x140, "l\u00b7"),
  (0x149, "\u02bcn"), (0x178, "\u00ff"), (0x17F, "s"), (0x181, "\u0253"), (0x182, "\u0183"),
  (0x184, "\u0185"), (0x186, "\u0254"), (0x187, "\u0188"), (0x189, "\u0256"), (0x18A, "\u0257"),
  (0x18B, "\u018c"), (0x18E, "\u01dd"), (0x18F, "\u0259"), (0x190, "\u025b"), (0x191, "\u0192"),
  (0x193, "\u0260"), (0x194, "\u0263"), (0x196, "\u0269"), (0x197, "\u0268"), (0x198, "\u0199"),
  (0x19C, "\u026f"), (0x19D, "\u0272"), (0x19F, "\u0275"), (0x1A6, "\u0280"), (0x1A7, "\u01a8"),
  (0x1A9, "\u0283"), (0x1AC, "\u01ad"), (0x1AE, "\u0288"), (0x1AF, "\u01b0"), (0x1B1, "\u028a"),
  (0x1B2, "\u028b"), (0x1B3, "\u01b4"), (0x1B5, "\u01b6"), (0x1B7, "\u0292"), (0x1B8, "\u01b9"),
  (0x1BC, "\u01bd"), (0x1C4, "d\u017e"), (0x1C5, "d\u017e"), (0x1C6, "d\u017e"), (0x1C7, "lj"),
  (0x1C8, "lj"), (0x1C9, "lj"), (0x1CA, "nj"), (0x1CB, "nj"), (0x1CC, "nj"), (0x1F1, "dz"),
  (0x1F2, "dz"), (0x1F3, "dz"), (0x1F4, "\u01f5"), (0x1F6, "\u0195"), (0x1F7, "\u01bf"),
  (0x220, "\u019e"), (0x23A, "\u2c65"), (0x23B, "\u023c"), (0x23D, "\u019a"), (0x23E, "\u2c66"),
  (0x241, "\u0242"), (0x243, "\u0180"), (0x244, "\u0289"), (0x245, "\u028c"), (0x2B0, "h"),
  (0x2B1, "\u0266"), (0x2B2, "j"), (0x2B3, "r"), (0x2B4, "\u0279"), (0x2B5, "\u027b"),
  (0x2B6, "\u0281"), (0x2B7, "w"), (0x2B8, "y"), (0x2E0, "\u0263"), (0x2E1, "l"), (0x2E2, "s"),
  (0x2E3, "x"), (0x2E4, "\u0295"), (0x340, "\u0300"), (0x341, "\u0301"), (0x343, "\u0313"),
  (0x344, "\u0308\u0301"), (0x345, "\u03b9"), (0x370, "\u0371"), (0x372, "\u0373"),
  (0x374, "\u02b9"), (0x376, "\u0377"), (0x37E, ";"), (0x37F, "\u03f3"), (0x386, "\u03ac"),
  (0x387, "\u00b7"), (0x38C, "\u03cc"), (0x38E, "\u03cd"), (0x38F, "\u03ce"), (0x3CF, "\u03d7"),
  (0x3D0, "\u03b2"), (0x3D1, "\u03b8"), (0x3D2, "\u03c5"), (0x3D3, "\u03cd"), (0x3D4, "\u03cb"),
  (0x3D5, "\u03c6"), (0x3D6, "\u03c0"), (0x3F0, "\u03ba"), (0x3F1, "\u03c1"), (0x3F2, "\u03c3"),
  (0x3F4, "\u03b8"), (0x3F5, "\u03b5"), (0x3F7, "\u03f8"), (0x3F9, "\u03c3"), (0x3FA, "\u03fb"),
  (0x4C0, "\u04cf"), (0x587, "\u0565\u0582"), (0xF0C, "\u0f0b"), (0x10C7, "\u2d27"),
  (0x10CD, "\u2d2d"), (0x10FC, "\u10dc"), (0x1C80, "\u0432"), (0x1C81, "\u0434"),
  (0x1C82, "\u043e"), (0x1C83, "\u0441"), (0x1C84, "\u0442"), (0x1C85, "\u0442"),
  (0x1C86, "\u044a"), (0x1C87, "\u0463"), (0x1C88, "\ua64b"), (0x1C89, "\u1c8a"), (0x1D2C, "a"),
  (0x1D2D, "\u00e6"), (0x1D2E, "b"), (0x1D30, "d"), (0x1D32, "\u01dd"), (0x1D3C, "o"),
  (0x1D3D, "\u0223"), (0x1D3E, "p"), (0x1D3F, "r"), (0x1D40, "t"), (0x1D41, "u"), (0x1D42, "w"),
  (0x1D43, "a"), (0x1D44, "\u0250"), (0x1D45, "\u0251"), (0x1D46, "\u1d02"), (0x1D47, "b"),
  (0x1D48, "d"), (0x1D49, "e"), (0x1D4A, "\u0259"), (0x1D4B, "\u025b"), (0x1D4C, "\u025c"),
  (0x1D4D, "g"), (0x1D4F, "k"), (0x1D50, "m"), (0x1D51, "\u014b"), (0x1D52, "o"),
  (0x1D53, "\u0254"), (0x1D54, "\u1d16"), (0x1D55, "\u1d17"), (0x1D56, "p"), (0x1D57, "t"),
  (0x1D58, "u"), (0x1D59, "\u1d1d"), (0x1D5A, "\u026f"), (0x1D5B, "v"), (0x1D5C, "\u1d25"),
  (0x1D60, "\u03c6"), (0x1D61, "\u03c7"), (0x1D62, "i"), (0x1D63, "r"), (0x1D64, "u"),
  (0x1D65, "v"), (0x1D66, "\u03b2"), (0x1D67, "\u03b3"), (0x1D68, "\u03c1"), (0x1D69, "\u03c6"),
  (0x1D6A, "\u03c7"), (0x1D78, "\u043d"), (0x1D9B, "\u0252"), (0x1D9C, "c"), (0x1D9D, "\u0255"),
  (0x1D9E, "\u00f0"), (0x1D9F, "\u025c"), (0x1DA0, "f"), (0x1DA1, "\u025f"), (0x1DA2, "\u0261"),
  (0x1DA3, "\u0265"), (0x1DA7, "\u1d7b"), (0x1DA8, "\u029d"), (0x1DA9, "\u026d"),
  (0x1DAA, "\u1d85"), (0x1DAB, "\u029f"), (0x1DAC, "\u0271"), (0x1DAD, "\u0270"),
  (0x1DB2, "\u0278"), (0x1DB3, "\u0282"), (0x1DB4, "\u0283"), (0x1DB5, "\u01ab"),
  (0x1DB6, "\u0289"), (0x1DB7, "\u028a"), (0x1DB8, "\u1d1c"), (0x1DB9, "\u028b"),
  (0x1DBA, "\u028c"), (0x1DBB, "z"), (0x1DBF, "\u03b8"), (0x1E9B, "\u1e61"), (0x1E9E, "\u00df"),
  (0x1F71, "\u03ac"), (0x1F73, "\u03ad"), (0x1F75, "\u03ae"), (0x1F77, "\u03af"),
  (0x1F79, "\u03cc"), (0x1F7B, "\u03cd"), (0x1F7D, "\u03ce"), (0x1FB8, "\u1fb0"),
  (0x1FB9, "\u1fb1"), (0x1FBA, "\u1f70"), (0x1FBB, "\u03ac"), (0x1FBE, "\u03b9"),
  (0x1FC8, "\u1f72"), (0x1FC9, "\u03ad"), (0x1FCA, "\u1f74"), (0x1FCB, "\u03ae"),
  (0x1FD3, "\u0390"), (0x1FD8, "\u1fd0"), (0x1FD9, "\u1fd1"), (0x1FDA, "\u1f76"),
  (0x1FDB, "\u03af"), (0x1FE3, "\u03b0"), (0x1FE8, "\u1fe0"), (0x1FE9, "\u1fe1"),
  (0x1FEA, "\u1f7a"), (0x1FEB, "\u03cd"), (0x1FEC, "\u1fe5"), (0x1FEF, "`"), (0x1FF8, "\u1f78"),
  (0x1FF9, "\u03cc"), (0x1FFA, "\u1f7c"), (0x1FFB, "\u03ce"), (0x2011, "\u2010"),
  (0x2033, "\u2032\u2032"), (0x2034, "\u2032\u2032\u2032"), (0x2036, "\u2035\u2035"),
  (0x2037, "\u2035\u2035\u2035"), (0x203C, "!!"), (0x2057, "\u2032\u2032\u2032\u2032"),
  (0x2070, "0"), (0x2071, "i"), (0x207A, "+"), (0x207B, "\u2212"), (0x207C, "="), (0x207D, "("),
  (0x207E, ")"), (0x207F, "n"), (0x208A, "+"), (0x208B, "\u2212"), (0x208C, "="), (0x208D, "("),
  (0x208E, ")"), (0x2090, "a"), (0x2091, "e"), (0x2092, "o"), (0x2093, "x"), (0x2094, "\u0259"),
  (0x2095, "h"), (0x209A, "p"), (0x209B, "s"), (0x209C, "t"), (0x20A8, "rs"), (0x2102, "c"),
  (0x2103, "\u00b0c"), (0x2107, "\u025b"), (0x2109, "\u00b0f"), (0x210A, "g"), (0x210B, "h"),
  (0x210F, "\u0127"), (0x2110, "i"), (0x2111, "i"), (0x2112, "l"), (0x2113, "l"), (0x2115, "n"),
  (0x2116, "no"), (0x211C, "r"), (0x211D, "r"), (0x2120, "sm"), (0x2121, "tel"), (0x2122, "tm"),
  (0x2124, "z"), (0x2126, "\u03c9"), (0x2128, "z"), (0x212A, "k"), (0x212B, "\u00e5"),
  (0x212C, "b"), (0x212D, "c"), (0x212F, "e"), (0x2130, "e"), (0x2131, "f"), (0x2132, "\u214e"),
  (0x2133, "m"), (0x2134, "o"), (0x2139, "i"), (0x213B, "fax"), (0x213C, "\u03c0"),
  (0x213D, "\u03b3"), (0x213E, "\u03b3"), (0x213F, "\u03c0"), (0x2140, "\u2211"), (0x2145, "d"),
  (0x2146, "d"), (0x2147, "e"), (0x2148, "i"), (0x2149, "j"), (0x2150, "1\u20447"),
  (0x2151, "1\u20449"), (0x2152, "1\u204410"), (0x2153, "1\u20443"), (0x2154, "2\u20443"),
  (0x2155, "1\u20445"), (0x2156, "2\u20445"), (0x2157, "3\u20445"), (0x2158, "4\u20445"),
  (0x2159, "1\u20446"), (0x215A, "5\u20446"), (0x215B, "1\u20448"), (0x215C, "3\u20448"),
  (0x215D, "5\u20448"), (0x215E, "7\u20448"), (0x215F, "1\u2044"), (0x2160, "i"), (0x2161, "ii"),
  (0x2162, "iii"), (0x2163, "iv"), (0x2164, "v"), (0x2165, "vi"), (0x2166, "vii"), (0x2167, "viii"),
  (0x2168, "ix"), (0x2169, "x"), (0x216A, "xi"), (0x216B, "xii"), (0x216C, "l"), (0x216D, "c"),
  (0x216E, "d"), (0x216F, "m"), (0x2170, "i"), (0x2171, "ii"), (0x2172, "iii"), (0x2173, "iv"),
  (0x2174, "v"), (0x2175, "vi"), (0x2176, "vii"), (0x2177, "viii"), (0x2178, "ix"), (0x2179, "x"),
  (0x217A, "xi"), (0x217B, "xii"), (0x217C, "l"), (0x217D, "c"), (0x217E, "d"), (0x217F, "m"),
  (0x2183, "\u2184"), (0x2189, "0\u20443"), (0x2329, "\u3008"), (0x232A, "\u3009"), (0x24EA, "0"),
  (0x3002, "."), (0xFB00, "ff"), (0xFB01, "fi"), (0xFB02, "fl"), (0xFB03, "ffi"), (0xFB04, "ffl"),
  (0xFB05, "st"), (0xFB06, "st"), (0xFB13, "\u0574\u0576"), (0xFB14, "\u0574\u0565"),
  (0xFB15, "\u0574\u056b"), (0xFB16, "\u057e\u0576"), (0xFB17, "\u0574\u056d"), (0xFF61, ".")
]

/-- What becomes of a character. -/
inductive Fate where
  | refused
  | replaced (text : List Char)

/-- Fate of a character; of ASCII, the capitals become small. -/
def fate (c : Char) : Fate :=
  let n := c.toNat
  let within (ranges : List (Nat × Nat)) : Bool := ranges.any fun r => r.1 ≤ n ∧ n ≤ r.2
  if n < 0x80 then .replaced [c.toLower]
  else if within refusedRanges then .refused
  else if within ignoredRanges then .replaced []
  else match replacements.findSome? (·.find? n), spellings.lookup n with
    | some d, _ => .replaced [d]
    | none, some text => .replaced text.toList
    | none, none => .replaced [c]

end LiveAudit.Url
